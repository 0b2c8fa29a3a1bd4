import Schemata.Diagnostic.Basic

set_option autoImplicit false

namespace Schemata

structure Checked (α : Type) where
  value : α
  diagnostics : List Diagnostic
deriving Repr

namespace Checked

def pure {α : Type} (value : α) : Checked α := ⟨value, []⟩

def bind {α β : Type} (first : Checked α) (next : α → Checked β) : Checked β :=
  let second := next first.value
  ⟨second.value, first.diagnostics ++ second.diagnostics⟩

instance : Monad Checked where
  pure := Checked.pure
  bind := Checked.bind

def report (diagnostic : Diagnostic) : Checked Unit := ⟨(), [diagnostic]⟩

@[simp] theorem value_pure {α : Type} (value : α) :
    (Pure.pure value : Checked α).value = value := rfl

@[simp] theorem diagnostics_pure {α : Type} (value : α) :
    (Pure.pure value : Checked α).diagnostics = [] := rfl

@[simp] theorem value_bind {α β : Type} (first : Checked α) (next : α → Checked β) :
    (first >>= next).value = (next first.value).value := rfl

@[simp] theorem diagnostics_bind {α β : Type} (first : Checked α) (next : α → Checked β) :
    (first >>= next).diagnostics = first.diagnostics ++ (next first.value).diagnostics := rfl

theorem pure_bind {α β : Type} (value : α) (next : α → Checked β) :
    ((Pure.pure value : Checked α) >>= next) = next value := rfl

theorem bind_assoc {α β γ : Type} (first : Checked α) (next : α → Checked β)
    (last : β → Checked γ) :
    (first >>= next) >>= last = first >>= fun value => next value >>= last :=
  congrArg (Checked.mk (last (next first.value).value).value) (List.append_assoc _ _ _)

theorem bind_congr {α β : Type} {first : Checked α} {next other : α → Checked β}
    (same : next first.value = other first.value) : (first >>= next) = (first >>= other) :=
  congrArg (fun second => (⟨second.value, first.diagnostics ++ second.diagnostics⟩ : Checked β)) same

end Checked

end Schemata
