import MiniLex.Text.Basic

/-!
# Delimited text with doubled delimiters

Text of any kind is quoted by putting a delimiter on either side and writing every delimiter inside
it twice. This module holds both directions:

* `enclose`: the quoted form of a text;
* `Body.read`: what follows an opening delimiter, cut into the runs that hold no delimiter and the
  doubled delimiters between them, up to the closing delimiter or the end of the input;
* `Body.text` and `Body.width`: the text that a body stands for, and how many characters of the
  source it takes, its closing delimiter included;
* `Body.longest?`: the longest part of a body that ends in a delimiter, which closes it.
-/

namespace MiniLex.Doubled

/-- A text with each delimiter `q` written twice. -/
def encode (q : Char) : Text → Text
  | [] => []
  | c :: cs => if c = q then q :: q :: encode q cs else c :: encode q cs

/-- The quoted form of a text: delimiters around it, and doubled inside it. -/
def enclose (q : Char) (t : Text) : Text := q :: (encode q t ++ [q])

/-- What follows an opening delimiter. A run is a longest stretch without a delimiter. -/
inductive Body where
  /-- The input ends after this run. -/
  | unclosed (run : Text)
  /-- A delimiter that no second one follows ends the body after this run. -/
  | closed (run : Text)
  /-- A doubled delimiter stands between this run and the rest of the body. -/
  | pair (run : Text) (rest : Body)
  deriving DecidableEq

namespace Body

/-- The body whose first run has one more character in front. -/
def cons (c : Char) : Body → Body
  | unclosed run => unclosed (c :: run)
  | closed run => closed (c :: run)
  | pair run rest => pair (c :: run) rest

/-- The body that a text opens with, the opening delimiter `q` being already read. -/
def read (q : Char) : Text → Body
  | [] => unclosed []
  | c :: cs =>
    if c = q then
      match cs with
      | [] => closed []
      | d :: ds => if d = q then pair [] (read q ds) else closed []
    else (read q cs).cons c

/-- The text that a body stands for: a doubled delimiter counts once. -/
def text (q : Char) : Body → Text
  | unclosed run => run
  | closed run => run
  | pair run rest => run ++ q :: rest.text q

/-- The number of source characters that a body takes, its closing delimiter included. -/
def width : Body → Nat
  | unclosed run => run.length
  | closed run => run.length + 1
  | pair run rest => run.length + 2 + rest.width

/-- The longest closed body that a body begins with. An unclosed body that holds doubled delimiters
still closes: at the first half of the last of them. -/
def longest? : Body → Option Body
  | unclosed _ => none
  | closed run => some (closed run)
  | pair run rest =>
    match rest.longest? with
    | some closedRest => some (pair run closedRest)
    | none => some (closed run)

@[simp] theorem text_cons (q c : Char) (b : Body) : (b.cons c).text q = c :: b.text q := by
  cases b <;> rfl

@[simp] theorem width_cons (c : Char) (b : Body) : (b.cons c).width = b.width + 1 := by
  cases b with
  | pair run rest => simp only [cons, width, List.length_cons]; omega
  | _ => simp [cons, width]

end Body

end MiniLex.Doubled
