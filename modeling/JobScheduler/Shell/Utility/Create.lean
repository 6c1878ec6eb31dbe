import JobScheduler.Shell.Utility.Call
import JobScheduler.Shell.Utility.Remove

namespace JobScheduler.Shell.Utility

open UtilityM

-- Utilities that make files and directories or change what they permit.

-- The paths that lead to a path from where it begins, the shortest first.
def stages (path : String) : List String :=
  (ancestors path.length path).reverse ++ [path]

def mkdir : Utility := do
  let call ← call 1
    { letters := "m:pv", words := [("mode", 'm'), ("parents", 'p'), ("verbose", 'v')] }
  needOperand call 1
  let refused := fun (path : String) (obstacle : Obstacle) => do
    complain s!"cannot create directory {Quoting.curly path}: {obstacle.message}"
    return false
  let make := fun (shown path : String) => do
    change fun tree => tree.put path .directory
    if call.has 'v' then sayLine s!"mkdir: created directory {Quoting.always shown}"
    return true
  let good ← forEach call.operands fun operand => do
    if call.has 'p' && operand != "" then
      (stages operand).foldlM
        (fun good stage => do
          if !good then return false
          match ← place stage true with
          | .found _ .directory => return true
          | .found _ _ => refused stage (if stage == operand then .exists_ else .notDirectory)
          | .free path => make stage path
          | other => refused stage other.obstacle)
        true
    else
      match ← place operand false with
      | .free path => make operand path
      | other => refused operand other.obstacle
  return statusOf good

-- The mode of a new file.
def newMode : UtilityM Nat := do
  let process ← perform ProcessM.self
  return 438 - (438 &&& process.mask)

def createFile (path : String) (bytes : List Char) : UtilityM Unit := do
  let mode ← newMode
  change fun tree => (tree.create path ⟨bytes, mode⟩).1

def touch : Utility := do
  let call ← call 1
    { letters := "acd:fhmr:t:"
      words := [("no-create", 'c'), ("date", 'd'), ("reference", 'r'), ("no-dereference", 'h')] }
  if call.operands.isEmpty then refuse 1 "missing file operand"
  let good ← forEach call.operands fun operand => do
    let shown := Quoting.always operand
    match ← place operand true with
    | .found _ _ => return true
    | .free path =>
        if call.has 'c' then return true
        else if operand.endsWith "/" then
          complain s!"setting times of {shown}: {Obstacle.missing.message}"
          return false
        else
          createFile path []
          return true
    | other =>
        if call.has 'c' && other.obstacle = .missing then return true
        else
          complain s!"cannot touch {shown}: {other.obstacle.message}"
          return false
  return statusOf good

-- Replaces what stands for chance in a template by letters that make a name which is free.
def fillTemplate (tree : FileTree) (directory before after : String) (size : Nat) : String :=
  let alphabet := "abcdefghijklmnopqrstuvwxyz0123456789".toList.toArray
  let name := fun (n : Nat) =>
    let letters := (List.range size).map fun i =>
      alphabet.getD (n * 7919 / Nat.pow 36 i % 36) 'a'
    before ++ String.ofList letters ++ after
  let names := (List.range 100000).map fun n => name (n + 271828)
  (names.find? fun path => !tree.exists? directory path).getD (name 0)

def mktemp : Utility := do
  let call ← call 1
    { letters := "dp:P::qtuS:"
      words := [("directory", 'd'), ("dry-run", 'u'), ("quiet", 'q'), ("tmpdir", 'P'),
        ("suffix", 'S')] }
  if 1 < call.operands.length then refuse 1 "too many templates"
  let given := call.operands.headD "tmp.XXXXXXXXXX"
  let temporary ← environment "TMPDIR"
  let home :=
    match (call.value? 'p').or (call.value? 'P') with
    | some "" => temporary.getD "/tmp"
    | some home => home
    | none => if call.operands.isEmpty || call.has 't' then temporary.getD "/tmp" else ""
  let suffix := (call.value? 'S').getD ""
  let reversed := given.toList.reverse
  let rest := if call.has 'S' then [] else reversed.takeWhile (· ≠ 'X')
  let marks := (reversed.drop rest.length).takeWhile (· = 'X')
  if marks.length < 3 then fail 1 s!"too few X's in template {Quoting.curly given}"
  let before := String.ofList (reversed.drop (rest.length + marks.length)).reverse
  let before := if home == "" then before else home ++ "/" ++ before
  let after := String.ofList rest.reverse ++ suffix
  let path := fillTemplate (← tree) (← directory) before after marks.length
  let template := if home == "" then given ++ suffix else home ++ "/" ++ given ++ suffix
  let kind := if call.has 'd' then "directory" else "file"
  if !call.has 'u' then
    match ← place path true with
    | .free full =>
        change fun tree =>
          if call.has 'd' then tree.put full .directory else (tree.create full ⟨[], 384⟩).1
    | other =>
        let cause := other.obstacle.message
        if call.has 'q' then leave 1
        fail 1 s!"failed to create {kind} via template {Quoting.curly template}: {cause}"
  sayLine path
  return 0

-- The bits that letters stand for, for the owner, the group and others at once.
def modeBits (mode : Nat) (isDirectory : Bool) (letter : Char) : Nat :=
  match letter with
  | 'r' => 292
  | 'w' => 146
  | 'x' => 73
  | 'X' => if isDirectory || mode &&& 73 ≠ 0 then 73 else 0
  | 's' => 3072
  | 't' => 512
  | 'u' => mode / 64 % 8 * 73
  | 'g' => mode / 8 % 8 * 73
  | 'o' => mode % 8 * 73
  | _ => 0

-- The bits that belong to the owner, the group and others.
def classBits : Char → Nat
  | 'u' => 2496
  | 'g' => 1080
  | 'o' => 519
  | _ => 4095

-- One change such as +x, for those that come before it.
def changeMode (mask : Nat) (isDirectory : Bool) (who : List Char) (mode : Nat) (operator : Char)
    (letters : List Char) : Nat :=
  let reach := who.foldl (fun bits c => bits ||| classBits c) 0
  let reach := if who.isEmpty then 4095 - mask else reach
  let bits := (letters.foldl (fun bits c => bits ||| modeBits mode isDirectory c) 0) &&& reach
  match operator with
  | '+' => mode ||| bits
  | '-' => mode - (mode &&& bits)
  | _ =>
      let kept := if who.isEmpty then 4095 else reach
      let held := if isDirectory then 3072 else 0
      (mode - (mode &&& (kept - (kept &&& held)))) ||| bits

def applyClause (mask : Nat) (isDirectory : Bool) (who : List Char) :
    Nat → Nat → List Char → Option Nat
  | 0, _, _ => none
  | _, mode, [] => some mode
  | fuel + 1, mode, operator :: rest =>
      if ['+', '-', '='].contains operator then
        let isLetter := fun (c : Char) => "rwxXstugo".toList.contains c
        let mode := changeMode mask isDirectory who mode operator (rest.takeWhile isLetter)
        applyClause mask isDirectory who fuel mode (rest.dropWhile isLetter)
      else none

-- A mode after changes, or a mode that is written as an octal number.
def newModeOf (mask : Nat) (isDirectory : Bool) (text : String) (mode : Nat) : Option Nat :=
  let cs := text.toList
  if !cs.isEmpty && cs.all fun c => '0' ≤ c && c ≤ '7' then
    let value := cs.foldl (fun n c => n * 8 + (c.toNat - 48)) 0
    if value < 4096 then some value else none
  else
    (splitAt ',' cs).foldlM
      (fun mode clause =>
        let isWho := fun (c : Char) => "ugoa".toList.contains c
        let rest := clause.dropWhile isWho
        if rest.isEmpty then none
        else applyClause mask isDirectory (clause.takeWhile isWho) (rest.length + 1) mode rest)
      mode

def chmod : Utility := do
  -- An argument such as -x is a mode.
  let isMode := fun (argument : String) =>
    match argument.toList with
    | '-' :: c :: _ => "rwxXstugoa,+=01234567".toList.contains c
    | _ => false
  let arguments := (← read).arguments
  let (mode?, arguments) :=
    match arguments.find? isMode with
    | some mode => (some mode, arguments.erase mode)
    | none => (none, arguments)
  let call ← ReaderT.adapt (fun request => { request with arguments }) <| call 1
    { letters := "cfRvF:"
      words := [("changes", 'c'), ("silent", 'f'), ("quiet", 'f'), ("recursive", 'R'),
        ("verbose", 'v'), ("reference", 'F')] }
  let words := mode?.toList ++ call.operands
  match words with
  | [] => refuse 1 "missing operand"
  | [only] => refuse 1 s!"missing operand after {Quoting.curly only}"
  | mode :: operands => do
      let mask := (← perform ProcessM.self).mask
      if (newModeOf mask false mode 0).isNone then
        refuse 1 s!"invalid mode: {Quoting.curly mode}"
      let good ← forEach operands fun operand => do
        match ← place operand true with
        | .found path node => do
            let tree ← tree
            let paths := if call.has 'R' then tree.below path else [("", node)]
            paths.forM fun (_, node) => do
              if let .file index := node then
                let content := tree.content index
                if let some mode := newModeOf mask false mode content.mode then
                  change fun tree => tree.setContent index { content with mode }
            return true
        | other => do
            if !call.has 'f' then
              complain s!"cannot access {Quoting.always operand}: {other.obstacle.message}"
            return false
      return statusOf good

-- Cuts files to a size or fills them up to it.
def truncate : Utility := do
  let call ← call 1
    { letters := "cor:s:", words := [("no-create", 'c'), ("size", 's'), ("reference", 'r')] }
  let size? := call.value? 's'
  if size?.isNone then
    let names := Quoting.curly "--size" ++ " or " ++ Quoting.curly "--reference"
    refuse 1 s!"you must specify either {names}"
  if call.operands.isEmpty then refuse 1 "missing file operand"
  let text := size?.getD ""
  let sign := text.toList.head?.filter fun c => ['+', '-', '<', '>'].contains c
  let number := if sign.isSome then String.ofList (text.toList.drop 1) else text
  let size ←
    match Amount.read number with
    | .exactly size => pure size
    | _ => fail 1 s!"Invalid number: {Quoting.curly number}"
  let good ← forEach call.operands fun operand => do
    if call.has 'c' && (← place operand true).obstacle = .missing then return true
    match ← open_ operand { writes := true, creates := true } with
    | .error obstacle => do
        complain s!"cannot open {Quoting.always operand} for writing: {obstacle.message}"
        return false
    | .ok number => do
        if let some (.file index) := (← target? number).map Opened.target then
          let bytes := ((← tree).content index).bytes
          let size :=
            match sign with
            | some '+' => bytes.length + size
            | some '-' => bytes.length - size
            | some '<' => min bytes.length size
            | some '>' => max bytes.length size
            | _ => size
          let filled := bytes.take size ++ List.replicate (size - bytes.length) '\x00'
          change fun tree => tree.setBytes index filled
        close number
        return true
  return statusOf good

end JobScheduler.Shell.Utility
