import JobScheduler.Shell.FileTree
import JobScheduler.Shell.Pattern

namespace JobScheduler.Shell

-- What a word expands to before it is split into fields: characters, marks that a field
-- is there even if it is empty, and gaps between fields. A character that `splits` came
-- from a value and ends a field if it is a separator.
inductive Piece
  | char (c : Char) (quoted splits : Bool)
  | mark
  | gap
deriving DecidableEq, Repr

namespace Piece

def ofValue (text : String) (quoted : Bool) : List Piece :=
  let chars := text.toList.map fun c => Piece.char c quoted (!quoted)
  if quoted then .mark :: chars else chars

-- The text of an expansion that is not split.
def join (pieces : List Piece) : List Pattern.Marked :=
  pieces.filterMap fun piece =>
    match piece with
    | .char c quoted _ => some (c, quoted)
    | .mark => none
    | .gap => some (' ', true)

def text (pieces : List Piece) : String := String.ofList ((join pieces).map (·.1))

structure Split where
  done : List (List Pattern.Marked)
  current : Option (List Pattern.Marked)
  -- Whether blanks just ended a field, so that a separator that follows ends no other one.
  ended : Bool

def Split.finish (split : Split) : Split :=
  match split.current with
  | some field => ⟨field.reverse :: split.done, none, true⟩
  | none => split

def Split.add (separators : List Char) (split : Split) : Piece → Split
  | .mark => { split with current := some (split.current.getD []) }
  | .gap => { split.finish with ended := false }
  | .char c quoted splits =>
      if splits && separators.contains c then
        if c == ' ' || c == '\t' || c == '\n' then split.finish
        else
          match split.current, split.ended with
          | some _, _ => { split.finish with ended := false }
          | none, true => { split with ended := false }
          | none, false => { split with done := [] :: split.done }
      else ⟨split.done, some ((c, quoted) :: split.current.getD []), false⟩

-- The fields of an expansion, given the characters that separate them.
def fields (separators : List Char) (pieces : List Piece) : List (List Pattern.Marked) :=
  ((pieces.foldl (Split.add separators) ⟨[], none, false⟩).finish).done.reverse

end Piece

namespace Field

def text (field : List Pattern.Marked) : String := String.ofList (field.map (·.1))

def splitMarked : List Pattern.Marked → List (List Pattern.Marked)
  | [] => [[]]
  | (c, quoted) :: rest =>
      if c = '/' then [] :: splitMarked rest
      else
        match splitMarked rest with
        | part :: parts => ((c, quoted) :: part) :: parts
        | [] => [[(c, quoted)]]

-- The names that fit one part of a path. A leading dot is matched by itself only.
def matching (tree : FileTree) (directory before : String) (part : List Pattern.Marked) :
    List String :=
  let pattern := Pattern.read part
  let shows := fun (name : String) => !name.startsWith "." || part.head?.map (·.1) == some '.'
  let names := tree.listing directory (if before == "" then "." else before)
  let names := if part.head?.map (·.1) == some '.' then "." :: ".." :: names else names
  names.filter fun name => shows name && pattern.fits name.toList

-- The paths that fit the parts that are left, after the part of the path so far.
def paths (tree : FileTree) (directory : String) (before : String) :
    List (List Pattern.Marked) → List String
  | [] => [before]
  | [last] =>
      if Pattern.isWild last then (matching tree directory before last).map (before ++ ·)
      else
        let path := before ++ text last
        if tree.exists? directory path then [path] else []
  | part :: rest =>
      if Pattern.isWild part then
        (matching tree directory before part).flatMap fun name =>
          if tree.isDirectory directory (before ++ name) then
            paths tree directory (before ++ name ++ "/") rest
          else []
      else paths tree directory (before ++ text part ++ "/") rest

-- A field that is a pattern stands for the paths that fit it, if there are any.
def expand (tree : FileTree) (directory : String) (field : List Pattern.Marked) : List String :=
  if Pattern.isWild field then
    match paths tree directory "" (splitMarked field) with
    | [] => [text field]
    | found => found
  else [text field]

end Field

end JobScheduler.Shell
