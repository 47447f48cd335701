import Rendezvous.Numeral

/-! # Which records are logged

A filter is a list of directives between commas.  A directive gives a level, for
all records or for those of a target; it may also name a span that the record
has to be in, or a field that it has to have, in brackets.  For each record the
most specific directive that applies decides, and without any directive only
errors are logged.

Pieces that are no directives are ignored, and `Filter.ignored` lists them.
-/

namespace Rendezvous.Log

inductive Level where
  | off
  | error
  | warn
  | info
  | debug
  | trace
  deriving DecidableEq, Repr

namespace Level

/-- The number of a level; each level takes in those with lower numbers. -/
def rank : Level → Nat
  | .off => 0
  | .error => 1
  | .warn => 2
  | .info => 3
  | .debug => 4
  | .trace => 5

def ofRank? (n : Nat) : Option Level :=
  [Level.off, .error, .warn, .info, .debug, .trace][n]?

def ofName? (name : String) : Option Level :=
  match name.toLower with
  | "off" => some .off
  | "error" => some .error
  | "warn" => some .warn
  | "info" => some .info
  | "debug" => some .debug
  | "trace" => some .trace
  | _ => none

def parse? (text : List Char) : Option Level :=
  match Numeral.unsigned? text with
  | some n => ofRank? n
  | none => ofName? (String.ofList text)

end Level

structure Record where
  level : Level
  /-- The part of the program that it comes from. -/
  target : String
  fields : List String
  deriving DecidableEq, Repr

structure Directive where
  level : Level := .trace
  /-- The beginning of the targets that it applies to. -/
  target : Option String := none
  field : Option String := none
  spanned : Bool := false
  deriving DecidableEq, Repr

namespace Directive

/-! ## Reading -/

def isBlank (c : Char) : Bool :=
  c = ' ' ∨ ('\t' ≤ c ∧ c ≤ '\x0D') ∨ ('\u2000' ≤ c ∧ c ≤ '\u200A') ∨
    ['\u0085', '\u00A0', '\u1680', '\u2028', '\u2029', '\u202F', '\u205F', '\u3000'].contains c

def trim (text : List Char) : List Char :=
  ((text.dropWhile isBlank).reverse.dropWhile isBlank).reverse

/-- Whether a target may begin with a character.  All characters beyond ASCII
    count as letters here. -/
def beginsTarget (c : Char) : Bool :=
  c.isAlphanum ∨ c = '-' ∨ c = ':' ∨ c = '_' ∨ '\x7F' < c

/-- Reads what follows a target and brackets: nothing, or a level. -/
def levelled? (directive : Directive) : List Char → Option Directive
  | [] => some directive
  | ['='] => some directive
  | '=' :: level => (Level.parse? level).map fun level => { directive with level }
  | _ => none

/-- Reads a field within braces, a closing bracket and what follows it.  A field
    with a value is looked for in spans. -/
def fielded? (directive : Directive) (text : List Char) : Option Directive :=
  let field := text.takeWhile (· ≠ '\x7D')
  match text.dropWhile (· ≠ '\x7D') with
  | _ :: ']' :: rest =>
    if field = [] then none
    else
      { directive with
        field := some (String.ofList (field.takeWhile (· ≠ '=')))
        spanned := directive.spanned || field.contains '=' }.levelled? rest
  | _ => none

def bracketed? (directive : Directive) (text : List Char) : Option Directive :=
  let span := text.takeWhile fun c => c ≠ ']' ∧ c ≠ '\x7B'
  match text.dropWhile fun c => c ≠ ']' ∧ c ≠ '\x7B' with
  | ']' :: rest => { directive with spanned := true }.levelled? rest
  | _ :: rest => { directive with spanned := span ≠ [] }.fielded? rest
  | [] => none

/-- Reads a directive.  A target alone lets everything through, and a level alone
    is for all targets. -/
def parse? (text : List Char) : Option Directive :=
  let text := trim text
  let name := text.takeWhile fun c => c ≠ '=' ∧ c ≠ '['
  let target : Directive := { target := some (String.ofList name) }
  match name, text.dropWhile (fun c => c ≠ '=' ∧ c ≠ '[') with
  | [], '[' :: rest => bracketed? {} rest
  | [], _ => none
  | c :: _, rest =>
    if ¬beginsTarget c then none
    else
      match rest with
      | [] => some ((Level.parse? name).elim target fun level => { level })
      | '[' :: rest => target.bracketed? rest
      | rest => target.levelled? rest

/-! ## Deciding -/

/-- Whether a directive applies to a record that is in no span. -/
def applies (directive : Directive) (record : Record) : Bool :=
  !directive.spanned &&
    directive.target.all (fun target => record.target.startsWith target) &&
    directive.field.all (fun field => record.fields.contains field)

/-- Of two directives that apply to a record, the one that decides: that for more of
    the target, then that with the later field, then the later one. -/
def decisive (earlier later : Directive) : Directive :=
  let length := fun (directive : Directive) => directive.target.elim 0 String.length
  let field := fun (directive : Directive) => directive.field.getD ""
  if length later < length earlier then earlier
  else if length later = length earlier ∧ field later < field earlier then earlier
  else later

end Directive

/-- A text that says what is logged, as pieces between commas. -/
structure Filter where
  pieces : List String
  deriving DecidableEq, Repr

namespace Filter

def parse (text : String) : Filter :=
  ⟨(text.splitOn ",").filter (· ≠ "")⟩

def directives (filter : Filter) : List Directive :=
  filter.pieces.filterMap fun piece => Directive.parse? piece.toList

def ignored (filter : Filter) : List String :=
  filter.pieces.filter fun piece => (Directive.parse? piece.toList).isNone

def decisive? (filter : Filter) (record : Record) : Option Directive :=
  let directives := if filter.directives = [] then [{ level := .error }] else filter.directives
  match directives.filter (·.applies record) with
  | [] => none
  | first :: others => some (others.foldl Directive.decisive first)

def logs (filter : Filter) (record : Record) : Bool :=
  (filter.decisive? record).any fun directive => record.level.rank ≤ directive.level.rank

end Filter

end Rendezvous.Log
