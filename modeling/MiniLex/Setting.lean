import MiniLex.Text.Literal

/-!
# Settings

The values that configurations are described with: single values, lists of settings and tables of
settings by their keys. A configuration keeps its settings as they are given, so that it can be
shown the way it was described; what a setting amounts to is decided where it is used:

* `Setting.isOn` says whether a setting asks for something;
* `Setting.number?` is the number as which a setting counts;
* `Setting.orElse` puts another setting where one is left open;
* `Setting.render` is the wording of a setting in messages.
-/

namespace MiniLex

mutual

/-- A value given for a setting. -/
inductive Setting where
  /-- The setting is left open. -/
  | nothing
  | flag (b : Bool)
  | number (n : Int)
  | text (s : String)
  | list (items : SettingList)
  | table (entries : Settings)
  deriving DecidableEq

/-- The settings of a list, in order. -/
inductive SettingList where
  | nil
  | cons (x : Setting) (rest : SettingList)
  deriving DecidableEq

/-- Settings by their keys, in order. -/
inductive Settings where
  | nil
  | cons (key : String) (x : Setting) (rest : Settings)
  deriving DecidableEq

end

/-- A setting that is not given is left open. -/
instance : Inhabited Setting := ⟨.nothing⟩

/-- The list of these settings. -/
def SettingList.ofList : List Setting → SettingList
  | [] => nil
  | x :: xs => cons x (ofList xs)

namespace Settings

/-- The settings with these keys. -/
def ofList : List (String × Setting) → Settings
  | [] => nil
  | (key, x) :: rest => cons key x (ofList rest)

/-- The keys and their settings. -/
def toList : Settings → List (String × Setting)
  | nil => []
  | cons key x rest => (key, x) :: rest.toList

@[simp] theorem toList_ofList (l : List (String × Setting)) : (ofList l).toList = l := by
  induction l with
  | nil => rfl
  | cons entry l ih => simp [ofList, toList, ih]

end Settings

mutual

/-- The wording of a setting inside a list or a table, where texts are quoted. -/
def Setting.literal : Setting → String
  | .nothing => "None"
  | .flag true => "True"
  | .flag false => "False"
  | .number n => toString n
  | .text s => Literal.renderString s
  | .list items => "[" ++ ", ".intercalate items.literals ++ "]"
  | .table entries => "\x7b" ++ ", ".intercalate entries.literals ++ "\x7d"

/-- The wordings of the settings of a list. -/
def SettingList.literals : SettingList → List String
  | .nil => []
  | .cons x rest => x.literal :: rest.literals

/-- The wordings of the entries of a table. -/
def Settings.literals : Settings → List String
  | .nil => []
  | .cons key x rest => (Literal.renderString key ++ ": " ++ x.literal) :: rest.literals

end

namespace Setting

/-- Whether a setting is neither left open nor false, zero or empty. -/
def isOn : Setting → Bool
  | nothing => false
  | flag b => b
  | number n => n ≠ 0
  | text s => s ≠ ""
  | list items => items ≠ .nil
  | table entries => entries ≠ .nil

/-- The number as which a setting counts. Flags count as 0 and 1. -/
def number? : Setting → Option Int
  | flag false => some 0
  | flag true => some 1
  | number n => some n
  | nothing | text _ | list _ | table _ => none

/-- The setting, or another one if it is left open. -/
def orElse : Setting → Setting → Setting
  | nothing, other => other
  | x, _ => x

/-- The wording of a setting. A text stands for itself. -/
def render : Setting → String
  | text s => s
  | x => x.literal

@[simp] theorem nothing_orElse (x : Setting) : nothing.orElse x = x := rfl

theorem orElse_of_ne_nothing {x : Setting} (h : x ≠ nothing) (y : Setting) : x.orElse y = x := by
  cases x <;> simp_all [orElse]

end Setting

end MiniLex
