import JobScheduler.Shell.Format
import JobScheduler.Shell.Utility.Call

namespace JobScheduler.Shell.Utility

open UtilityM

-- A number that was given, with the width and the decimals that it was written with. Forms
-- other than decimal ones tell no decimals.
structure Term where
  value : Fraction
  width : Int
  decimals : Option Nat

namespace Term

def one : Term := ⟨.ofInt 1, 1, some 0⟩

-- What the exponent of a number changes about its width and its decimals.
def scale (text : List Char) (term : Term) : Term :=
  match text.dropWhile fun c => c ≠ 'e' && c ≠ 'E' with
  | [] => term
  | shown@(_ :: digits) =>
      let exponent := (integer? (String.ofList digits)).getD 0
      let decimals := term.decimals.map fun (n : Nat) =>
        if exponent < 0 then n + exponent.natAbs else n - exponent.natAbs
      let bare := text.takeWhile fun c => c ≠ 'e' && c ≠ 'E'
      let point : Int :=
        if exponent < 0 && (!bare.contains '.' || bare.getLast? = some '.') then 1 else 0
      { term with decimals, width := term.width - shown.length + exponent.natAbs + point }

def read? (text : String) : Option Term := do
  let cs := text.toList.dropWhile fun c => c == ' ' || ('\t' ≤ c && c ≤ '\r') || c == '+'
  let (value, rest) ← Fraction.read? cs
  if !rest.isEmpty then none
  let decimals := if cs.contains '.' || cs.contains 'p' then none else some 0
  let isDecimal := !(cs.contains 'x' || cs.contains 'X')
  match isDecimal, value with
  | true, .finite .. =>
      let before := cs.takeWhile (· ≠ '.')
      let term : Term :=
        match cs.dropWhile (· ≠ '.') with
        | [] => ⟨value, cs.length, decimals⟩
        | _ :: rest =>
            let places := (rest.takeWhile fun c => c ≠ 'e' && c ≠ 'E').length
            let leads := (before.getLast?).any Char.isDigit
            let change : Int := if places = 0 then -1 else if leads then 0 else 1
            ⟨value, cs.length + change, some places⟩
      return term.scale cs
  | _, _ => return ⟨value, 0, decimals⟩

end Term

-- Numbers with the same denominator: `first`, `first + step`, and so on up to `last`, if
-- there is a last one.
structure Progression where
  first : Int
  step : Int
  last : Option Int
  denominator : Nat

namespace Progression

def numerator : Fraction → Int × Nat
  | .finite negative n d => (if negative then -n else n, d)
  | _ => (0, 1)

def ofTerms (first step last : Fraction) : Progression :=
  let (a, d) := numerator first
  let (b, e) := numerator step
  let (c, f) := numerator last
  let last :=
    match last with
    | .finite .. => some (c * d * e)
    | .infinite negative =>
        if negative = decide (b < 0) then none
        else some (a * e * f - b.sign)
    | .undefined _ => none
  ⟨a * e * f, b * d * f, last, d * e * f⟩

def at_ (progression : Progression) (i : Nat) : Int := progression.first + i * progression.step

-- The number of members, if there is an end.
def size? (progression : Progression) : Option Nat :=
  progression.last.map fun last =>
    let span := if progression.step < 0 then progression.first - last else last - progression.first
    if span < 0 then 0 else span.toNat / progression.step.natAbs + 1

def fraction (progression : Progression) (i : Nat) : Fraction :=
  let value := progression.at_ i
  .finite (value < 0) value.natAbs progression.denominator

end Progression

-- How the members are written.
inductive Layout
  | decimals (width places : Nat)
  | general
  | pattern (format : String)

namespace Layout

def text (layout : Layout) (value : Fraction) : List Char :=
  match layout with
  | .decimals width places =>
      { Format.Directive.plain with zeros := true, width, precision := some places }.fraction 'f' 4
        value
  | .general => Format.Directive.plain.fraction 'g' 4 value
  | .pattern format =>
      let exact := Format.Directive.fraction { Format.Directive.plain with precision := some 40 } 'f'
        4 value
      (Format.print .program format [String.ofList exact]).text

-- The decimals and the width that numbers of the same width need.
def ofTerms (sameWidth : Bool) (first step last : Term) : Layout :=
  match first.decimals, step.decimals, last.decimals with
  | some a, some b, some c =>
      let places := max a b
      let firstWidth := first.width + ((places : Int) - a) + (if a = 0 && places ≠ 0 then 1 else 0)
      let lastWidth := last.width + ((places : Int) - c) +
        (if c ≠ 0 && places = 0 then -1 else if c = 0 && places ≠ 0 then 1 else 0)
      .decimals (if sameWidth then (max firstWidth lastWidth).toNat else 0) places
  | _, _, _ => .general

-- A format with one directive for a fraction.
def read (format : String) : Except String Layout :=
  let shown := Quoting.curly format
  let rec percents : List Char → List (List Char)
    | '%' :: '%' :: rest => percents rest
    | '%' :: rest => rest :: percents rest
    | _ :: rest => percents rest
    | [] => []
  match percents format.toList with
  | [] => .error s!"format {shown} has no % directive"
  | [directive] =>
      let rest := directive.dropWhile fun c => "-+#0 '".toList.contains c
      let rest := rest.dropWhile fun c => c.isDigit || c = '.'
      let rest := if rest.head? = some 'L' then rest.drop 1 else rest
      match rest with
      | [] => .error s!"format {shown} ends in %"
      | c :: _ =>
          if "efgaEFGA".toList.contains c then
            .ok (.pattern (String.join (format.toList.map fun c =>
              if c = '\\' then "\\\\" else c.toString)))
          else .error s!"format {shown} has unknown %{c} directive"
  | _ => .error s!"format {shown} has too many % directives"

end Layout

-- Whether the member behind the last one is written too, since rounding makes it look like
-- the end.
def hasExtra (progression : Progression) (layout : Layout) (last : Fraction) (size : Nat) : Bool :=
  size ≠ 0 &&
    (let shown := layout.text (progression.fraction size)
    match Fraction.read? shown, last with
    | some (.finite negative n d, []), .finite negative' m e =>
        n * e = m * d && (negative = negative' || n = 0) &&
          shown ≠ layout.text (progression.fraction (size - 1))
    | _, _ => false)

-- Writes members from one on, many at once.
def sayMembers (progression : Progression) (layout : Layout) (separator : List Char)
    (size : Option Nat) : Nat → Nat → UtilityM Unit
  | 0, _ => return
  | fuel + 1, done => do
      let count := (size.map fun size => size - done).getD 1000
      let members := (List.range (min count 1000)).map fun (i : Nat) =>
        let text := layout.text (progression.fraction (done + i))
        if done + i = 0 then text else separator ++ text
      if members.isEmpty then return
      say members.flatten
      sayMembers progression layout separator size fuel (done + members.length)

def seqTerm (text : String) : UtilityM Term := do
  let shown := Quoting.curly text
  match Term.read? text with
  | none => refuse 1 s!"invalid floating point argument: {shown}"
  | some ⟨.undefined _, _, _⟩ => do
      let kind := Quoting.curly "not-a-number"
      refuse 1 s!"invalid {kind} argument: {shown}"
  | some term => return term

def seq : Utility := do
  let call ← call 1
    { letters := "f:s:w", strict := true, numbers := true
      words := [("format", 'f'), ("separator", 's'), ("equal-width", 'w')] }
  needOperand call 1
  if let some extra := call.operands[3]? then extraOperand 1 extra
  let pattern ← (call.value? 'f').mapM fun format => do
    match Layout.read format with
    | .ok layout => return layout
    | .error message => fail 1 message
  if call.has 'f' && call.has 'w' then
    refuse 1 "format string may not be specified when printing equal width strings"
  let (first, step, last) ←
    match call.operands with
    | [last] => pure (Term.one, Term.one, ← seqTerm last)
    | [first, last] => pure (← seqTerm first, Term.one, ← seqTerm last)
    | first :: step :: last :: _ => do
        let first ← seqTerm first
        let term ← seqTerm step
        if (Progression.numerator term.value).1 = 0 then
          let shown := Quoting.curly step
          refuse 1 s!"invalid Zero increment value: {shown}"
        pure (first, term, ← seqTerm last)
    | [] => pure (Term.one, Term.one, Term.one)
  let progression := Progression.ofTerms first.value step.value last.value
  let layout := pattern.getD (Layout.ofTerms (call.has 'w') first step last)
  let separator := ((call.value? 's').getD "\n").toList
  let size := progression.size?.map fun size =>
    if hasExtra progression layout last.value size then size + 1 else size
  sayMembers progression layout separator size ProcessM.patience 0
  if size ≠ some 0 then say ['\n']
  return 0

end JobScheduler.Shell.Utility
