import MiniLex.Memory.Fault
import MiniLex.Setting
import MiniLex.Token

/-!
# Failures

The reasons for which an operation on scans fails, and their wording. Names of languages and of
kinds of tokens are looked up here, because a name that stands for nothing is one of these reasons.
-/

namespace MiniLex

/-- Why an operation fails. -/
inductive Failure where
  /-- No bootstrap rule accepts the character found on this line of the input. -/
  | illegalCharacter (line : Nat) (char : Char) (sourceName : Setting)
  /-- A request for memory was turned down. -/
  | allocation (fault : AllocationFault)
  /-- A token was asked of a scanner of this name after it was closed. -/
  | scannerClosed (scanner : String)
  /-- A token was asked of a scanner that has no rules. -/
  | noRules
  /-- No language has this name. -/
  | unknownLanguage (name : String)
  /-- The language in question has no kind of token with this name. -/
  | unknownKind (name : String)
  deriving DecidableEq

namespace Failure

/-- The wording of a character that no rule accepts. An input is named if its name is on. -/
def illegalCharacterMessage (line : Int) (found : String) (sourceName : Setting) : String :=
  let place := if sourceName.isOn then sourceName.render ++ ": " else ""
  place ++ "syntax error at line " ++ toString line ++ ": unexpected character \"" ++ found ++ "\""

/-- The wording of a request to a closed scanner. -/
def scannerClosedMessage (scanner : String) : String := scanner ++ " scanner is closed"

/-- The wording of a failure. -/
def message : Failure → String
  | illegalCharacter line char sourceName =>
    illegalCharacterMessage line (String.singleton char) sourceName
  | allocation fault => fault.message
  | scannerClosed scanner => scannerClosedMessage scanner
  | noRules => ""
  | unknownLanguage name => Literal.renderString name ++ " is not a valid ScanLanguage"
  | unknownKind name => Literal.renderString name

end Failure

namespace Language

/-- The language that a name chooses, and the bootstrap language where no name is given. A name that
chooses none is a failure. -/
def named : Option String → Except Failure Language
  | none => .ok bootstrap
  | some name =>
    match ofName? name with
    | some l => .ok l
    | none => .error (.unknownLanguage name)

/-- The kind of a language's tokens with a name. A name that none of them has is a failure. -/
def kindNamed (l : Language) (name : String) : Except Failure TokenKind :=
  match l.kind? name with
  | some kind => .ok kind
  | none => .error (.unknownKind name)

end Language

end MiniLex
