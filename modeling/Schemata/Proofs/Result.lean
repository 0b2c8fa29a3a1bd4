set_option autoImplicit false

namespace Schemata

theorem Except.bind_eq_ok {α β ε : Type} {first : Except ε α} {next : α → Except ε β} {result : β} :
    (first >>= next) = .ok result ↔ ∃ value, first = .ok value ∧ next value = .ok result := by
  cases first with
  | error error => simp [bind, Except.bind]
  | ok value => simp [bind, Except.bind]

theorem Except.bind_eq_error {α β ε : Type} {first : Except ε α} {next : α → Except ε β}
    {error : ε} : (first >>= next) = .error error ↔
      first = .error error ∨ ∃ value, first = .ok value ∧ next value = .error error := by
  cases first with
  | error other => simp [bind, Except.bind]
  | ok value => simp [bind, Except.bind]

@[simp] theorem Except.ok_bind {α β ε : Type} (value : α) (next : α → Except ε β) :
    (Except.ok value >>= next) = next value :=
  rfl

theorem Except.map_eq_ok {α β ε : Type} {result : Except ε α} {convert : α → β} {value : β} :
    result.map convert = .ok value ↔ ∃ inner, result = .ok inner ∧ convert inner = value := by
  cases result with
  | error error => simp [Except.map]
  | ok inner => simp [Except.map]

theorem Except.mapError_eq_ok {α ε ε' : Type} {result : Except ε α} {convert : ε → ε'} {value : α} :
    result.mapError convert = .ok value ↔ result = .ok value := by
  cases result with
  | error error => exact ⟨nofun, nofun⟩
  | ok inner => exact ⟨fun same => by cases same; rfl, fun same => by cases same; rfl⟩

theorem Except.toOption_eq_some {α ε : Type} {result : Except ε α} {value : α} :
    result.toOption = some value ↔ result = .ok value := by
  cases result with
  | error error => simp [Except.toOption]
  | ok inner => simp [Except.toOption]

theorem anyM_congr_reached {α ε : Type} {test other : α → Except ε Bool} {items : List α}
    (each : ∀ before item after, items = before ++ item :: after →
      (∀ earlier ∈ before, test earlier = .ok false) → other item = test item) :
    items.anyM other = items.anyM test := by
  induction items with
  | nil => rfl
  | cons first rest ih =>
    have head := each [] first rest rfl (fun _ found => nomatch found)
    rw [List.anyM, List.anyM, head]
    cases result : test first with
    | error error => rfl
    | ok answer =>
      cases answer with
      | true => rfl
      | false =>
        apply ih
        -- The items before stand behind one more that does not settle the answer.
        intro before item after split goesOn
        apply each (first :: before) item after (by rw [split, List.cons_append])
        exact List.forall_mem_cons.2 ⟨result, goesOn⟩

theorem allM_congr_reached {α ε : Type} {test other : α → Except ε Bool} {items : List α}
    (each : ∀ before item after, items = before ++ item :: after →
      (∀ earlier ∈ before, test earlier = .ok true) → other item = test item) :
    items.allM other = items.allM test := by
  induction items with
  | nil => rfl
  | cons first rest ih =>
    have head := each [] first rest rfl (fun _ found => nomatch found)
    rw [List.allM, List.allM, head]
    cases result : test first with
    | error error => rfl
    | ok answer =>
      cases answer with
      | false => rfl
      | true =>
        apply ih
        intro before item after split goesOn
        apply each (first :: before) item after (by rw [split, List.cons_append])
        exact List.forall_mem_cons.2 ⟨result, goesOn⟩

theorem mapM_congr_reached {α β ε : Type} {first second : α → Except ε β} {items : List α}
    (each : ∀ before item after, items = before ++ item :: after →
      (∀ earlier ∈ before, ∃ value, second earlier = .ok value) → first item = second item) :
    (items.map first).mapM id = (items.map second).mapM id := by
  induction items with
  | nil => rfl
  | cons head rest ih =>
    have same := each [] head rest rfl (fun _ found => nomatch found)
    rw [List.map_cons, List.map_cons, List.mapM_cons, List.mapM_cons, same]
    cases result : second head with
    | error error => rfl
    | ok value =>
      rw [ih]
      intro before item after split goesOn
      apply each (head :: before) item after (by rw [split, List.cons_append])
      exact List.forall_mem_cons.2 ⟨⟨value, result⟩, goesOn⟩

theorem anyM_congr {α ε : Type} {left right : α → Except ε Bool} {items : List α}
    (each : ∀ item ∈ items, left item = right item) : items.anyM left = items.anyM right :=
  anyM_congr_reached fun _ item _ split _ => each item (by simp [split])

theorem allM_congr {α ε : Type} {left right : α → Except ε Bool} {items : List α}
    (each : ∀ item ∈ items, left item = right item) : items.allM left = items.allM right :=
  allM_congr_reached fun _ item _ split _ => each item (by simp [split])

def FailsOnly {α ε : Type} (expected : ε → Prop) (result : Except ε α) : Prop :=
  ∀ error, result = .error error → expected error

namespace FailsOnly

variable {α β ε : Type} {expected : ε → Prop}

theorem ok (value : α) : FailsOnly expected (.ok value) := by
  intro error failed
  cases failed

theorem ofError {error : ε} (isExpected : expected error) :
    FailsOnly expected (.error error : Except ε α) := by
  intro other failed
  cases failed
  exact isExpected

theorem bind {first : Except ε α} {next : α → Except ε β} (head : FailsOnly expected first)
    (tail : ∀ value, first = .ok value → FailsOnly expected (next value)) :
    FailsOnly expected (first >>= next) := by
  cases first with
  | error error => exact ofError (head error rfl)
  | ok value => exact tail value rfl

theorem map {first : Except ε α} {convert : α → β} (head : FailsOnly expected first) :
    FailsOnly expected (first.map convert) := by
  cases first with
  | error error => exact ofError (head error rfl)
  | ok value => exact ok _

theorem anyM {test : α → Except ε Bool} {items : List α}
    (each : ∀ item ∈ items, FailsOnly expected (test item)) :
    FailsOnly expected (items.anyM test) := by
  induction items with
  | nil => exact ok false
  | cons first rest ih =>
    rw [List.forall_mem_cons] at each
    refine bind each.1 fun answer _ => ?_
    cases answer with
    | true => exact ok true
    | false => exact ih each.2

theorem allM {test : α → Except ε Bool} {items : List α}
    (each : ∀ item ∈ items, FailsOnly expected (test item)) :
    FailsOnly expected (items.allM test) := by
  induction items with
  | nil => exact ok true
  | cons first rest ih =>
    rw [List.forall_mem_cons] at each
    refine bind each.1 fun answer _ => ?_
    cases answer with
    | true => exact ih each.2
    | false => exact ok false

theorem mapM {convert : α → Except ε β} {items : List α}
    (each : ∀ item ∈ items, FailsOnly expected (convert item)) :
    FailsOnly expected (items.mapM convert) := by
  induction items with
  | nil => exact ok []
  | cons first rest ih =>
    rw [List.forall_mem_cons] at each
    rw [List.mapM_cons]
    exact bind each.1 fun value _ => bind (ih each.2) fun values _ => ok _

end FailsOnly

end Schemata
