import Schemata.Command.Run

set_option autoImplicit false

namespace Schemata.Disk

def attempt {α : Type} (action : IO α) : IO (Except FileError α) := do
  match ← action.toBaseIO with
  | .ok value => return .ok value
  | .error (.noFileOrDirectory ..) => return .error .missing
  | .error (.inappropriateType _ 21 _) => return .error .isADirectory
  | .error (.inappropriateType ..) => return .error .notADirectory
  | .error error => return .error (.other (toString error))

partial def filesBeneath (path : String) : IO (List Place) := do
  let entries ← (← IO.FS.realPath path).readDir
  let places ← entries.toList.mapM fun entry => do
    match (← entry.path.symlinkMetadata).type with
    | .dir =>
        return (← filesBeneath (path ++ "/" ++ entry.fileName)).map (entry.fileName :: ·)
    | .file => return [[entry.fileName]]
    | _ => return []
  return places.flatten

def storage : Storage IO where
  filesBeneath? path := do
    match ← attempt (IO.FS.realPath path) with
    | .ok real => if ← real.isDir then return some (← filesBeneath path) else return none
    | .error _ => return none
  hasFile path := do
    match ← attempt (IO.FS.realPath path) with
    | .ok real => return (← real.pathExists) && !(← real.isDir)
    | .error _ => return false
  read path := attempt (IO.FS.readFile path)
  write path text := attempt (IO.FS.writeFile path text)

end Schemata.Disk

def Schemata.usage : String :=
  "usage: zmodel check validate INPUT... [--json] [--deny-warnings] [--require-datasource]\n" ++
  "       zmodel check fmt INPUT [-o FILE | --write] [--strip-comments]\n" ++
  "       zmodel policy INPUT [-o FILE]\n"

def main (arguments : List String) : IO UInt32 := do
  match Schemata.Command.ofArguments? arguments with
  | none => IO.eprint Schemata.usage; return 2
  | some command =>
      let outcome ← command.run Schemata.Disk.storage
      IO.print outcome.stdout
      IO.eprint outcome.stderr
      return if outcome.failed then 1 else 0
