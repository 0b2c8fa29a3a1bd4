import Schemata.Syntax.DocumentReader
import Schemata.Syntax.Printer

set_option autoImplicit false

namespace Schemata

inductive TextPart
  | code
  | quoted (delimiter : Char)
  | escaped (delimiter : Char)
  | lineComment
  | blockStart
  | blockComment
  | blockEnd
deriving Repr, DecidableEq

def commentOffsetsFrom : TextPart → Nat → List Char → List Nat
  | _, _, [] => []
  | .code, offset, char :: rest =>
      let next := offset + char.utf8Size
      if char = '"' ∨ char = '\'' then commentOffsetsFrom (.quoted char) next rest
      else if char = '/' ∧ rest.head? = some '/' then
        offset :: commentOffsetsFrom .lineComment next rest
      else if char = '/' ∧ rest.head? = some '*' then
        offset :: commentOffsetsFrom .blockStart next rest
      else commentOffsetsFrom .code next rest
  | .quoted delimiter, offset, char :: rest =>
      let next := offset + char.utf8Size
      if char = '\\' then commentOffsetsFrom (.escaped delimiter) next rest
      else if char = delimiter then commentOffsetsFrom .code next rest
      else commentOffsetsFrom (.quoted delimiter) next rest
  | .escaped delimiter, offset, char :: rest =>
      commentOffsetsFrom (.quoted delimiter) (offset + char.utf8Size) rest
  | .lineComment, offset, char :: rest =>
      let next := offset + char.utf8Size
      if char = '\n' then commentOffsetsFrom .code next rest
      else commentOffsetsFrom .lineComment next rest
  | .blockStart, offset, char :: rest =>
      commentOffsetsFrom .blockComment (offset + char.utf8Size) rest
  | .blockComment, offset, char :: rest =>
      let next := offset + char.utf8Size
      if char = '*' ∧ rest.head? = some '/' then commentOffsetsFrom .blockEnd next rest
      else commentOffsetsFrom .blockComment next rest
  | .blockEnd, offset, char :: rest => commentOffsetsFrom .code (offset + char.utf8Size) rest

def commentOffsets (text : String) : List Nat :=
  commentOffsetsFrom .code 0 text.toList

inductive FormatError
  | comments (first : Position)
  | unreadable (error : ParseError)
deriving Repr

def FormatError.message : FormatError → String
  | .comments first =>
      "document has comments (first at line " ++ toString first.line ++ ", column " ++
        toString first.column ++
        "); formatting would drop them (pass --strip-comments to proceed)"
  | .unreadable error => error.message

def format (text : String) (stripComments : Bool) : Except FormatError String :=
  match if stripComments then none else (commentOffsets text).head? with
  | some first => .error (.comments (Position.ofOffset text first))
  | none =>
      match Document.read text with
      | .ok document => .ok document.print
      | .error error => .error (.unreadable error)

end Schemata
