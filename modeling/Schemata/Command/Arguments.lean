import Schemata.Schema.Structure

set_option autoImplicit false

namespace Schemata

inductive Command
  | validate (inputs : List String) (options : ValidationOptions) (asJson : Bool)
  | format (input : String) (out : Option String) (inPlace stripComments : Bool)
  | policy (input : String) (out : Option String)
deriving Repr, DecidableEq

structure Arguments where
  inputs : List String
  flags : List String
  out : Option String
deriving Repr, DecidableEq, Inhabited

namespace Arguments

def attachedPath? (word : String) : Option String :=
  match word.toList with
  | '-' :: '-' :: 'o' :: 'u' :: 't' :: '=' :: path => some (String.ofList path)
  | '-' :: 'o' :: '=' :: path => some (String.ofList path)
  | '-' :: 'o' :: path => some (String.ofList path)
  | _ => none

def isPath (word : String) : Bool := word == "-" || word.toList.head?.any (· != '-')

def withFlag (flag : String) (arguments : Arguments) : Option Arguments :=
  if arguments.flags.contains flag then none
  else some { arguments with flags := flag :: arguments.flags }

def withOut (path : String) (arguments : Arguments) : Option Arguments :=
  if path.isEmpty || arguments.out.isSome then none else some { arguments with out := some path }

def read? (flags : List String) : List String → Option Arguments
  | [] => some ⟨[], [], none⟩
  | "--" :: rest => if rest.contains "" then none else some ⟨rest, [], none⟩
  | word :: rest =>
      if flags.contains word then (read? flags rest).bind (withFlag word)
      else if word = "-o" ∨ word = "--out" then
        match rest with
        | [] => none
        | path :: rest => if isPath path then (read? flags rest).bind (withOut path) else none
      else if isPath word then
        (read? flags rest).map fun others => { others with inputs := word :: others.inputs }
      else do
        let path ← attachedPath? word
        (read? flags rest).bind (withOut path)

def input? (arguments : Arguments) : Option String :=
  match arguments.inputs with
  | [input] => some input
  | _ => none

def has (arguments : Arguments) (flag : String) : Bool := arguments.flags.contains flag

end Arguments

namespace Command

def ofArguments? : List String → Option Command
  | "check" :: "validate" :: rest => do
      let arguments ← Arguments.read? ["--json", "--deny-warnings", "--require-datasource"] rest
      if arguments.inputs.isEmpty || arguments.out.isSome then none
      else some (.validate arguments.inputs
        ⟨arguments.has "--require-datasource", arguments.has "--deny-warnings"⟩
        (arguments.has "--json"))
  | "check" :: "fmt" :: rest => do
      let arguments ← Arguments.read? ["--write", "--strip-comments"] rest
      let input ← arguments.input?
      some (.format input arguments.out (arguments.has "--write")
        (arguments.has "--strip-comments"))
  | "policy" :: rest => do
      let arguments ← Arguments.read? [] rest
      let input ← arguments.input?
      some (.policy input arguments.out)
  | _ => none

end Command

end Schemata
