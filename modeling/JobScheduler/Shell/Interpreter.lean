import JobScheduler.Shell.Builtin.Flow
import JobScheduler.Shell.Builtin.Variables
import JobScheduler.Shell.Expression
import JobScheduler.Shell.Lookup
import JobScheduler.Shell.Script
import JobScheduler.Shell.Substitution
import JobScheduler.Shell.Utility.Table

namespace JobScheduler.Shell

open ShellM

mutual

def pieces : Nat → Word → ShellM (List Piece)
  | 0, _ => throw .exhausted
  | fuel + 1, word => do
      partsPieces fuel (← tildes false true word)

def partsPieces : Nat → Word → ShellM (List Piece)
  | 0, _ => throw .exhausted
  | _, [] => return []
  | fuel + 1, part :: rest => do
      let first ← partPieces fuel part
      return first ++ (← partsPieces fuel rest)

def partPieces : Nat → Part → ShellM (List Piece)
  | 0, _ => throw .exhausted
  | fuel + 1, part => do
      match part with
      | .plain c => return [.char c false false]
      | .literal text => return .mark :: text.map fun c => .char c true false
      | .variable name quoted => variablePieces name quoted
      | .size name quoted =>
          if name == "@" || name == "*" then
            return Piece.ofValue (toString (← get).arguments.length) quoted
          let value ← requireSet name
          return Piece.ofValue (toString value.length) quoted
      | .fallback name kind colon word quoted => do
          let value ← parameter name
          let isSet := value.any fun value => !(colon && value == "")
          match kind, isSet with
          | .replace, false => return Piece.ofValue "" quoted
          | .replace, true =>
              let inner ← pieces fuel word
              return if quoted then .mark :: inner else asValue inner
          | _, true => variablePieces name quoted
          | .use, false => do
              let inner ← pieces fuel word
              return if quoted then .mark :: inner else asValue inner
          | .assign, false => do
              if !isName name then refuse "Bad substitution"
              let value := Piece.text (← pieces fuel word)
              setVariable name value
              return Piece.ofValue value quoted
          | .refuse, false => do
              let text := Piece.text (← pieces fuel word)
              if !word.isEmpty then refuse s!"{name}: {text}"
              else if colon then refuse s!"{name}: parameter not set or null"
              else refuse s!"{name}: parameter not set"
      | .trim name kind word quoted => do
          let value ← requireSet name
          let pattern := Pattern.read (Piece.join (← pieces fuel word))
          let chars := value.toList
          let rest :=
            match kind with
            | .shortEnd => Pattern.dropEnd pattern false chars
            | .longEnd => Pattern.dropEnd pattern true chars
            | .shortStart => Pattern.dropStart pattern false chars
            | .longStart => Pattern.dropStart pattern true chars
          return Piece.ofValue (String.ofList rest) quoted
      | .arithmetic word quoted => do
          let text := Piece.text (← partsPieces fuel word)
          let look := fun (name : String) => do return (← parameter name).getD ""
          let store := fun (name : String) (value : Int) => setVariable name (toString value)
          match ← ((Expression.read text).evaluate look store).run with
          | .ok value => return Piece.ofValue (toString value) quoted
          | .error fault => refuse (fault.message text)
      | .output body quoted => do
          let bytes ← capture fuel body
          return Piece.ofValue (String.ofList (withoutEnd (bytes.filter (· ≠ '\x00')))) quoted
      | .badSubstitution => refuse "Bad substitution"

-- What a command writes, run by a shell of its own.
def capture : Nat → Command → ShellM (List Char)
  | 0, _ => throw .exhausted
  | fuel + 1, body => do
      if body matches .nothing then
        modify fun session => { session with outputStatus := some session.status }
        return []
      let before := (← get).status
      let (reader, writer) ← perform ProcessM.makePipe
      let number ← perform (ProcessM.freeNumber 10)
      let job ← newJob
      let process ← fork (fun process => { process with
          handles := process.handles.insert 1 writer })
        (branch fuel ⟨false, true⟩ body)
      addProcess job process
      let (_, old) ← changeHandle number (some reader)
      let bytes ← perform (ProcessM.readAll number)
      let _ ← changeHandle number old
      finishJob job
      modify fun session =>
        { session with outputStatus := some session.status, status := before }
      return bytes.toOption.getD []

def fields : Nat → List Word → ShellM (List String)
  | 0, _ => throw .exhausted
  | _, [] => return []
  | fuel + 1, word :: rest => do
      let found := Piece.fields (← separators) (← pieces fuel word)
      let first ←
        if ← isOn 'f' then pure (found.map Field.text)
        else do
          let tree ← tree
          let directory ← directory
          pure (found.flatMap (Field.expand tree directory))
      return first ++ (← fields fuel rest)

-- The words of a call. Behind a name that sets variables they are not split where they do.
def callWords : Nat → List String → List Word → ShellM (List String)
  | 0, _, _ => throw .exhausted
  | _, before, [] => return before
  | fuel + 1, before, word :: rest => do
      let mayAssign := (assignment? word).isSome && !before.isEmpty
      let isSetting ← if mayAssign then assignsIn before else pure false
      let found ← if isSetting then pure [← settingText fuel word] else fields fuel [word]
      callWords fuel (before ++ found) rest

-- The text of a word that is one field in any case.
def text : Nat → Word → ShellM String
  | 0, _ => throw .exhausted
  | fuel + 1, word => do return Piece.text (← pieces fuel word)

-- The text of a value for a variable, perhaps with the name before it.
def settingText : Nat → Word → ShellM String
  | 0, _ => throw .exhausted
  | fuel + 1, word => do
      let isBefore := fun (part : Part) =>
        match part with
        | .plain c => c != '='
        | _ => false
      let name := (word.takeWhile isBefore) ++ (word.dropWhile isBefore).take 1
      let value ← tildes true true (word.drop name.length)
      return Piece.text (← partsPieces fuel (name ++ value))

def patternPieces : Nat → List Word → ShellM (List (List Piece))
  | 0, _ => throw .exhausted
  | _, [] => return []
  | fuel + 1, word :: rest => do
      let first ← pieces fuel word
      return first :: (← patternPieces fuel rest)

-- What redirections name, before any of them is in force.
def targets : Nat → List Redirect → ShellM (List (Nat × RedirectKind × String))
  | 0, _ => throw .exhausted
  | _, [] => return []
  | fuel + 1, .mk number kind target :: rest => do
      let named ←
        match kind with
        | .here index => do
            let word := (← get).heres.getD index []
            pure (Piece.text (← partsPieces fuel word))
        | kind => do
            let operand ← text fuel target
            checkNumber kind operand
            pure operand
      return (number, kind, named) :: (← targets fuel rest)

-- Makes the numbers lead where the redirections say and tells where they led.
def redirect : Nat → List (Nat × RedirectKind × String) → List (Nat × Option Nat) →
    ShellM (List (Nat × Option Nat))
  | 0, _, _ => throw .exhausted
  | _, [], saved => return saved
  | fuel + 1, (number, kind, named) :: rest, saved => do
      let index ← tryCatch
        (match kind with
          | .here _ => return some (← openText named.toList)
          | kind => redirectionTarget kind named)
        fun stop => do
          saved.forM fun entry => perform (ProcessM.setHandle entry.1 entry.2)
          throw stop
      redirect fuel rest ((← changeHandle number index) :: saved)

-- Runs work with redirections in force. The work is told where messages about what is done
-- went before. One that fails gives status 2, or ends the shell.
def redirecting : Nat → List Redirect → Bool → (Option Nat → ShellM Unit) → ShellM Unit
  | 0, _, _, _ => throw .exhausted
  | fuel + 1, redirects, special, work => do
      let errors ← perform (ProcessM.handle? 2)
      if redirects.isEmpty then work errors
      else
        let named ← targets fuel redirects
        let saved ← tryCatch (do return some (← redirect fuel named [])) fun stop =>
          match stop, special with
          | .failed, false => return none
          | stop, _ => throw stop
        match saved with
        | none => pure ⟨⟩
        | some saved => do
            keepHandles saved
            finally_ (work errors) (restoreHandles saved)

-- Runs a command as the rest of what a shell of its own does.
def branch : Nat → Mode → Command → ShellM Unit
  | 0, _, _ => throw .exhausted
  | fuel + 1, mode, command => atEnd fuel (run fuel mode command)

-- Runs work to the end of the shell and then what is to be done at the end.
def atEnd : Nat → ShellM Unit → ShellM Unit
  | 0, _ => throw .exhausted
  | fuel + 1, work => do
      bounded work
      match (← get).traps.find? 0 with
      | none | some "" => return
      | some action => do
          let status := (← get).status
          modify fun session =>
            { session with traps := session.traps.erase 0, trapStatus := some status }
          tryCatch (do evaluate fuel action; setStatus status) fun stop =>
            match stop with
            | .exhausted => throw .exhausted
            | .exit | .failed => pure ⟨⟩
            | _ => setStatus status

-- Does what is to be done on the signals that have come.
def answer : Nat → ShellM Unit
  | 0 => throw .exhausted
  | fuel + 1 => do
      match (← perform ProcessM.self).pending.min? with
      | none => return
      | some signal => do
          perform (ProcessM.modifySelf fun process =>
            { process with pending := process.pending.filter (· != signal) })
          if let some action := (← get).traps.find? signal then
            let session ← get
            let status := session.status
            modify fun session => { session with trapStatus := some status }
            finally_
              (tryCatch (do evaluate fuel action; setStatus status) fun stop => do
                if stop matches .leaveLoops _ || stop matches .nextRound _ then setStatus status
                throw stop)
              (modify fun now => { now with trapStatus := session.trapStatus })
          answer fuel

-- Reads a text and runs it line by line up to what cannot be read. Without any command
-- the status is 0.
def evaluate : Nat → String → ShellM Unit
  | 0, _ => throw .exhausted
  | fuel + 1, text => do
      let status ← evaluateFrom fuel (Cursor.ofText (← get).heres text.toList) 0
      setStatus status

def evaluateFrom : Nat → Cursor → Nat → ShellM Nat
  | 0, _, _ => throw .exhausted
  | fuel + 1, cursor, status => do
      let session ← get
      let cursor := { cursor with heres := session.heres }
      match cursor.next session.aliases with
      | .error (line, misreading) => do
          modify fun session => { session with line }
          refuse ("Syntax error: " ++ misreading.message)
      | .ok ((command, ended), cursor) => do
          modify fun session => { session with heres := cursor.heres }
          let isNothing := command matches .nothing
          run fuel Mode.plain command
          let reached := (← get).status
          let status := if isNothing then status else reached
          if ended then return status else evaluateFrom fuel cursor status

def run : Nat → Mode → Command → ShellM Unit
  | 0, _, _ => throw .exhausted
  | fuel + 1, mode, command => do
      if ← isOn 'n' then return
      answer fuel
      match command with
      | .nothing => return
      | .simple line assignments words redirects => do
          modify fun session => { session with line, outputStatus := none }
          simple fuel mode assignments words redirects
          answer fuel
          settle mode
      | .pipeline stages background => do
          if background then
            let job ← newJob
            pipe fuel mode true job none stages
            noteBackground job
          else
            let job ← newJob
            pipe fuel mode false job none stages
            finishJob job
            answer fuel
            settle mode
      | .negation inner => do
          run fuel Mode.test inner
          setStatus (if (← get).status = 0 then 1 else 0)
          answer fuel
      | .both first second => do
          run fuel Mode.test first
          if (← get).status = 0 then run fuel mode second
      | .either first second => do
          run fuel Mode.test first
          if (← get).status ≠ 0 then run fuel mode second
      | .sequence first second => do
          run fuel mode.inner first
          run fuel mode second
      | .background line inner redirects => do
          modify fun session => { session with line }
          let job ← newJob
          let named ← targets fuel redirects
          let null ← perform (ProcessM.addOpened ⟨.device .null, 0, true, false, false⟩)
          let process ← fork
            (fun process => ignoringKeys
              { process with handles := process.handles.insert 0 null })
            (atEnd fuel do
              let _ ← redirect fuel named []
              run fuel ⟨false, true⟩ inner)
          addProcess job process
          noteBackground job
      | .subshell line inner redirects => do
          modify fun session => { session with line }
          let named ← targets fuel redirects
          let work : ShellM Unit := do
            let _ ← redirect fuel named []
            run fuel ⟨mode.tested, true⟩ inner
          if mode.last && !(← hasTraps) then
            modify Session.branch
            atEnd fuel work
            throw .exit
          let job ← newJob
          let process ← fork id (atEnd fuel work)
          addProcess job process
          finishJob job
          answer fuel
          settle mode
      | .redirected line body redirects => do
          modify fun session => { session with line }
          redirecting fuel redirects false fun _ => run fuel mode.inner body
          answer fuel
          settle mode
      | .conditional test success failure => do
          run fuel Mode.test test
          if (← get).status = 0 then run fuel mode success
          else if failure matches .nothing then setStatus 0
          else run fuel mode failure
      | .loop goOnIf test body => do
          inLoop (loop fuel mode.inner goOnIf test body 0)
          answer fuel
      | .each line name words body => do
          modify fun session => { session with line }
          let values ←
            match words with
            | some words => fields fuel words
            | none => pure (← get).arguments
          if values.isEmpty then setStatus 0
          inLoop (each fuel mode.inner name values body)
          answer fuel
      | .choice line word arms => do
          modify fun session => { session with line }
          let subject ← text fuel word
          choose fuel mode subject.toList arms
          answer fuel
      | .define name body => do
          modify fun session => { session with functions := session.functions.insert name body }
          setStatus 0

-- Starts the stages, each with what the one before writes to read.
def pipe : Nat → Mode → Bool → Nat → Option Nat → List Command → ShellM Unit
  | 0, _, _, _, _, _ => throw .exhausted
  | _, _, _, _, _, [] => return
  | fuel + 1, mode, background, job, held, stage :: rest => do
      let source ←
        match held with
        | some number => perform (ProcessM.handle? number)
        | none =>
            if background then
              pure (some (← perform
                (ProcessM.addOpened ⟨.device .null, 0, true, false, false⟩)))
            else pure none
      let (reader, writer) ← if rest.isEmpty then pure (0, none) else do
        let (reader, writer) ← perform ProcessM.makePipe
        pure (reader, some writer)
      let process ← fork
        (fun process =>
          let handles := (held.elim process.handles process.handles.erase)
          let handles := (source.elim handles (handles.insert 0 ·))
          let handles := (writer.elim handles (handles.insert 1 ·))
          let process := { process with handles }
          if background then ignoringKeys process else process)
        (branch fuel ⟨mode.tested && !background, true⟩ stage)
      addProcess job process
      if let some number := held then perform (ProcessM.setHandle number none)
      if !rest.isEmpty then
        let number ← perform (ProcessM.freeNumber 10)
        perform (ProcessM.setHandle number (some reader))
        pipe fuel mode background job (some number) rest

def loop : Nat → Mode → Bool → Command → Command → Nat → ShellM Unit
  | 0, _, _, _, _, _ => throw .exhausted
  | fuel + 1, mode, goOnIf, test, body, status => do
      let goesOn ← round do
        run fuel Mode.test test
        if ((← get).status == 0) == goOnIf then run fuel mode body
        else
          setStatus status
          throw (.leaveLoops 1)
      if goesOn then loop fuel mode goOnIf test body (← get).status

def each : Nat → Mode → String → List String → Command → ShellM Unit
  | 0, _, _, _, _ => throw .exhausted
  | _, _, _, [], _ => return
  | fuel + 1, mode, name, value :: rest, body => do
      setVariable name value
      if ← round (run fuel mode body) then each fuel mode name rest body

def choose : Nat → Mode → List Char → List (List Word × Command) → ShellM Unit
  | 0, _, _, _ => throw .exhausted
  | _, _, _, [] => setStatus 0
  | fuel + 1, mode, subject, (patterns, body) :: rest => do
      if fitsAny (← patternPieces fuel patterns) subject then
        if body matches .nothing then setStatus 0 else run fuel mode body
      else choose fuel mode subject rest

-- Sets variables for the command at hand, one after the other. They are put back with the
-- current frame if that is asked for.
def assignAll : Nat → Bool → Bool → List (String × Word) → ShellM (List (String × String))
  | 0, _, _, _ => throw .exhausted
  | _, _, _, [] => return []
  | fuel + 1, isLocal, exported, (name, word) :: rest => do
      let value := Piece.text (← partsPieces fuel (← tildes true true word))
      if isLocal then makeLocal name
      assign name value (isLocal || exported)
      return (name, value) :: (← assignAll fuel isLocal exported rest)

-- Shows a command before it is run, if that is asked for.
def trace : Nat → Option Nat → List (String × String) → List String → ShellM Unit
  | 0, _, _, _ => throw .exhausted
  | fuel + 1, errors, assignments, words => do
      if ← isOn 'x' then
        let before ← get
        modify fun session => { session with options := session.options.filter (· != 'x') }
        let prompt ← prompt fuel ((← valueOf "PS4").getD "")
        modify fun session => { session with options := before.options }
        let shown := assignments.map (fun entry => s!"{entry.1}={entry.2}") ++ words
        if let some index := errors then
          let _ ← perform (ProcessM.writeOpened index
            (prompt ++ " ".intercalate shown ++ "\n").toList)

-- The text of a prompt, read like a text in quotes.
def prompt : Nat → String → ShellM String
  | 0, _ => throw .exhausted
  | fuel + 1, text => do
      match Cursor.quotedText (← get).heres text.toList with
      | some word => return Piece.text (← partsPieces fuel word)
      | none => return text

def simple : Nat → Mode → List (String × Word) → List Word → List Redirect → ShellM Unit
  | 0, _, _, _, _ => throw .exhausted
  | fuel + 1, mode, assignments, words, redirects => do
      match ← callWords fuel [] words with
      | [] => do
          perform (ProcessM.sleep tick)
          redirecting fuel redirects false fun errors => do
            let values ← assignAll fuel false false assignments
            trace fuel errors values []
            setStatus ((← get).outputStatus.getD 0)
      | shown => do
          let calling ← resolve shown
          let isExec := calling.isBuiltin && calling.name == "exec"
          if isExec && calling.arguments.isEmpty then
            let errors ← perform (ProcessM.handle? 2)
            let named ← targets fuel redirects
            let opened ← tryCatch (do return some (← redirect fuel named [])) fun stop =>
              if calling.special then throw stop else return none
            if opened.isSome then
              let values ← assignAll fuel (!calling.special) false assignments
              trace fuel errors values shown
              setStatus 0
          else
            let isLocal := !calling.special
            redirecting fuel redirects calling.special fun errors =>
              inFrameIf isLocal do
                let values ← assignAll fuel isLocal isExec assignments
                trace fuel errors values shown
                callee fuel mode calling

def callee : Nat → Mode → Calling → ShellM Unit
  | 0, _, _ => throw .exhausted
  | fuel + 1, mode, calling => do
      match calling.meaning with
      | .function body => function fuel mode body calling.arguments
      | .builtin => do
          perform (ProcessM.sleep tick)
          let work := speaking calling.name (builtin fuel calling.name calling.arguments)
          tryCatch work fun stop =>
            match stop, calling.special with
            | .failed, false => pure ⟨⟩
            | stop, _ => throw stop
      | .program => external fuel mode calling

def function : Nat → Mode → Command → List String → ShellM Unit
  | 0, _, _, _ => throw .exhausted
  | fuel + 1, mode, body, arguments => do
      let before ← get
      modify fun session =>
        { session with
          arguments, loops := 0, inFunction := true, optionPlace := ⟨1, none⟩ }
      finally_
        (tryCatch (inFrame (run fuel mode.inner body)) fun stop =>
          match stop with
          | .leaveFunction => pure ⟨⟩
          | stop => throw stop)
        (modify fun session =>
          { session with
            arguments := before.arguments, loops := before.loops
            inFunction := before.inFunction, optionPlace := before.optionPlace })

def builtin : Nat → String → List String → ShellM Unit
  | 0, _, _ => throw .exhausted
  | fuel + 1, name, arguments => do
      match name, Builtin.table.lookup name with
      | _, some builtin => builtin arguments
      | "eval", _ => do
          if arguments.isEmpty then setStatus 0
          else evaluate fuel (" ".intercalate arguments)
      | "exec", _ => replace fuel (arguments.headD "") (arguments.drop 1)
      | ".", _ => sourceFile fuel arguments
      | "type", _ => describe true arguments
      | "hash", _ => hash arguments
      | _, _ => do
          let (flags, names) ← Builtin.flags ['p', 'v', 'V'] arguments
          match flags.find? (· ≠ 'p') with
          | some 'v' => describe false (names.take 1)
          | some _ => describe true (names.take 1)
          | none => setStatus 0

-- Puts a program in the place of the shell.
def replace : Nat → String → List String → ShellM Unit
  | 0, _, _ => throw .exhausted
  | fuel + 1, name, arguments => do
      match ← lookUp name (← searchPath) with
      | .error obstacle => do
          complain s!"{name}: {programMessage obstacle}"
          setStatus (failureStatus obstacle)
          throw .exit
      | .ok path => becomeProgram fuel path ⟨name, arguments, ← environment⟩

-- Goes on as a program and no longer as a shell.
def becomeProgram : Nat → String → Request → ShellM Unit
  | 0, _, _ => throw .exhausted
  | fuel + 1, path, request => perform do
      ProcessM.modifySelf asProgram
      ProcessM.sleep loading
      ProcessM.conclude (← runPath fuel path request)

-- Runs a program in a process of its own and waits for it, or in place of the shell if that
-- has nothing left to do.
def external : Nat → Mode → Calling → ShellM Unit
  | 0, _, _ => throw .exhausted
  | fuel + 1, mode, calling => do
      let name := calling.name
      match ← lookUp name (calling.path.getD (← searchPath)) with
      | .error obstacle => do
          complain s!"{name}: {programMessage obstacle}"
          setStatus (if name.contains '/' then failureStatus obstacle else 127)
      | .ok path => do
          let request : Request := ⟨name, calling.arguments, ← environment⟩
          if mode.last && !(← hasTraps) then becomeProgram fuel path request
          else
            let job ← newJob
            let process ← perform <| ProcessM.spawn asProgram do
              ProcessM.sleep loading
              runPath fuel path request
            addProcess job process
            finishJob job

-- Runs what is at a path in the process at hand.
def runPath : Nat → String → Request → ProcessM Ending
  | 0, _, _ => return .exited 0
  | fuel + 1, path, request => do
      match (← ProcessM.machine).tree.nodeAt? (← ProcessM.directory) path with
      | some (.program "sh") | some (.program "dash") => shell fuel request
      | some (.program name) => do
          match ← (((Utility.find? name (runProgram fuel)).getD (pure 127)).run request).run with
          | .ok status | .error status => return .exited status
      | some (.file index) => do
          let bytes := ((← ProcessM.machine).tree.content index).bytes
          match interpreter? bytes with
          | some (program, given) => do
              let arguments := given ++ path :: request.arguments
              runPath fuel program { request with name := program, arguments }
          | none => shell fuel { request with arguments := path :: request.arguments }
      | _ => return .exited 127

-- Runs a program by its name in the process at hand.
def runProgram : Nat → Request → ProcessM (Except Obstacle Ending)
  | 0, _ => return .error .missing
  | fuel + 1, request => do
      let path := (request.environment.find? "PATH").getD defaultPath
      let tree := (← ProcessM.machine).tree
      match tree.findProgram (← ProcessM.directory) request.name path with
      | .error obstacle => return .error obstacle
      | .ok path => return .ok (← runPath fuel path request)

-- Runs a shell in the process at hand.
def shell : Nat → Request → ProcessM Ending
  | 0, _ => return .exited 0
  | fuel + 1, request => do
      let process ← ProcessM.number
      let self ← ProcessM.self
      let given := request.environment.find? "PWD"
      let tree := (← ProcessM.machine).tree
      let place :=
        match given.map fun place => tree.locate "/" place true with
        | some (.found path _) =>
            if path == self.directory then given.getD self.directory else self.directory
        | _ => self.directory
      let start := Session.start process self.parent place request.environment.entries
      let work : ShellM Unit := atEnd fuel (invocation fuel false request.arguments)
      let (_, session) ← (work.run).run { start with name := request.name, line := 0 }
      return .exited (session.status % 256)

-- The arguments of a shell: options, and the commands or a file that holds them.
def invocation : Nat → Bool → List String → ShellM Unit
  | 0, _, _ => throw .exhausted
  | fuel + 1, commands, arguments => do
      match arguments.map String.toList with
      | ['-', '-'] :: _ | ['-'] :: _ => program fuel commands (arguments.drop 1)
      | ('-' :: letters) :: _ => do
          let rest ← Builtin.setLetters true (letters.filter (· ≠ 'c')) (arguments.drop 1)
          invocation fuel (commands || letters.contains 'c') rest
      | ('+' :: letters) :: _ => do
          let rest ← Builtin.setLetters false letters (arguments.drop 1)
          invocation fuel commands rest
      | _ => program fuel commands arguments

-- Runs the commands in the first argument, or in the file that it names, or those that can
-- be read if there is no argument.
def program : Nat → Bool → List String → ShellM Unit
  | 0, _, _ => throw .exhausted
  | fuel + 1, commands, arguments => do
      match commands, arguments with
      | true, [] => refuse "-c requires an argument"
      | true, text :: rest => do
          modify fun session =>
            { session with name := rest.headD session.name, arguments := rest.drop 1 }
          evaluate fuel text
      | false, arguments => do
          if arguments.isEmpty || (← isOn 's') then
            modify fun session => { session with arguments }
            Builtin.setOption true 's'
            let bytes ← perform (ProcessM.readAll 0)
            evaluate fuel (String.ofList (bytes.toOption.getD []))
          else
            let file := arguments.headD ""
            modify fun session => { session with arguments := arguments.drop 1 }
            match ← fileText file with
            | .ok bytes => do
                modify fun session => { session with name := file }
                evaluate fuel (String.ofList bytes)
            | .error obstacle => refuse s!"cannot open {file}: {openingMessage obstacle false}"

def sourceFile : Nat → List String → ShellM Unit
  | 0, _ => throw .exhausted
  | fuel + 1, arguments => do
      match ← Builtin.operands arguments with
      | [] => setStatus 0
      | name :: _ => do
          match ← findSource name with
          | none => refuse s!"{name}: not found"
          | some path =>
              match ← fileText path with
              | .error obstacle =>
                  refuse s!"cannot open {path}: {openingMessage obstacle false}"
              | .ok bytes =>
                  tryCatch (speaking path (evaluate fuel (String.ofList bytes))) fun stop =>
                    match stop with
                    | .leaveFunction => pure ⟨⟩
                    | stop => throw stop

end

end JobScheduler.Shell
