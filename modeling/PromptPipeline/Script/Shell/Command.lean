import PromptPipeline.Script.Shell.Word

/-!
# Commands of the shell

The commands that a script consists of, and how they are read from its tokens.
-/

namespace PromptPipeline.Shell

/-- A command. -/
inductive Command where
  /-- Does nothing. -/
  | skip
  /-- Assignments, or a utility with its arguments. -/
  | simple (words : List Word)
  | sequence (first second : Command)
  /-- The second one if the first one succeeds. -/
  | both (first second : Command)
  /-- The second one if the first one fails. -/
  | either (first second : Command)
  /-- The output of the first one is the input of the second one. -/
  | pipe (first second : Command)
  | negate (inner : Command)
  /-- A command whose changes are forgotten. -/
  | subshell (inner : Command)
  | redirect (inner : Command) (redirections : List Redirection)
  | conditional (condition yes no : Command)
  /-- Repeats the body as long as the condition succeeds, or as long as it fails. -/
  | loop (whileFails : Bool) (condition body : Command)
  | forEach (name : String) (items : List Word) (body : Command)

/-- The word that a list of tokens starts with, if it has no quotes and expansions. -/
def leadingWord? : List Symbol → Option String
  | .word w :: _ => w.plain?
  | _ => none

/-- The tokens without the line feeds in front. -/
def skipLines : List Symbol → List Symbol
  | .operator "\n" :: rest => skipLines rest
  | symbols => symbols

/-- The tokens after a certain word, if they start with it. -/
def afterWord? (word : String) (symbols : List Symbol) : Option (List Symbol) :=
  if leadingWord? symbols = some word then some symbols.tail else none

/-- The words that end a list of commands. -/
def closingWords : List String :=
  ["then", "else", "elif", "fi", "do", "done", "\x7d"]

/-- The words at the start of the tokens, and what follows them. -/
def takeWords : List Symbol → List Word × List Symbol
  | .word w :: rest => ((w :: (takeWords rest).1), (takeWords rest).2)
  | rest => ([], rest)

/-- The words and redirections at the start of the tokens, and what follows them. -/
def takeParts : List Symbol → List Word × List Redirection × List Symbol
  | .word w :: rest =>
    let (ws, rs, rest) := takeParts rest
    (w :: ws, rs, rest)
  | .redirectTo stream target :: rest =>
    let (ws, rs, rest) := takeParts rest
    (ws, ⟨stream, .stream target⟩ :: rs, rest)
  | .redirect stream _ :: .word path :: rest =>
    let (ws, rs, rest) := takeParts rest
    (ws, ⟨stream, .file path⟩ :: rs, rest)
  | rest => ([], [], rest)

mutual

/-- Commands up to the end of the tokens, a closing bracket or a closing word. -/
def readList : (fuel : Nat) → List Symbol → Option (Command × List Symbol)
  | 0, _ => none
  | fuel + 1, symbols =>
    match skipLines symbols with
    | [] => some (.skip, [])
    | .operator ")" :: rest => some (.skip, .operator ")" :: rest)
    | symbols =>
      if (leadingWord? symbols).any closingWords.contains then some (.skip, symbols)
      else do
        let (first, rest) ← readChain fuel symbols
        match rest with
        | .operator ";" :: rest | .operator "\n" :: rest | .operator "&" :: rest =>
          let (second, rest) ← readList fuel rest
          some (.sequence first second, rest)
        | rest => some (first, rest)

/-- Commands joined by `&&` and `||`. -/
def readChain : (fuel : Nat) → List Symbol → Option (Command × List Symbol)
  | 0, _ => none
  | fuel + 1, symbols => do
    let (first, rest) ← readPipeline fuel symbols
    readChainAfter fuel first rest

/-- The further commands of a chain. -/
def readChainAfter : (fuel : Nat) → Command → List Symbol → Option (Command × List Symbol)
  | 0, _, _ => none
  | fuel + 1, first, symbols =>
    match symbols with
    | .operator "&&" :: rest => do
      let (second, rest) ← readPipeline fuel (skipLines rest)
      readChainAfter fuel (.both first second) rest
    | .operator "||" :: rest => do
      let (second, rest) ← readPipeline fuel (skipLines rest)
      readChainAfter fuel (.either first second) rest
    | rest => some (first, rest)

/-- Commands joined by pipes. -/
def readPipeline : (fuel : Nat) → List Symbol → Option (Command × List Symbol)
  | 0, _ => none
  | fuel + 1, symbols =>
    match afterWord? "!" symbols with
    | some rest => do
      let (inner, rest) ← readPipeline fuel rest
      some (.negate inner, rest)
    | none => do
      let (first, rest) ← readCommand fuel symbols
      match rest with
      | .operator "|" :: rest => do
        let (second, rest) ← readPipeline fuel (skipLines rest)
        some (.pipe first second, rest)
      | rest => some (first, rest)

/-- One command with its redirections. -/
def readCommand : (fuel : Nat) → List Symbol → Option (Command × List Symbol)
  | 0, _ => none
  | fuel + 1, symbols => do
    let compound ← match symbols with
      | .operator "(" :: rest => do
        let (inner, rest) ← readList fuel rest
        match rest with
        | .operator ")" :: rest => some (some (Command.subshell inner, rest))
        | _ => none
      | _ =>
        match leadingWord? symbols with
        | some "\x7b" => do
          let (inner, rest) ← readList fuel symbols.tail
          some (some (inner, ← afterWord? "\x7d" rest))
        | some "if" => (readConditional fuel symbols.tail).map some
        | some "while" => (readLoop fuel false symbols.tail).map some
        | some "until" => (readLoop fuel true symbols.tail).map some
        | some "for" => (readForEach fuel symbols.tail).map some
        | _ => some none
    match compound with
    | some (inner, rest) =>
      match takeParts rest with
      | ([], [], rest) => some (inner, rest)
      | ([], redirections, rest) => some (.redirect inner redirections, rest)
      | _ => none
    | none =>
      match takeParts symbols with
      | ([], [], _) => none
      | (words, [], rest) => some (.simple words, rest)
      | (words, redirections, rest) => some (.redirect (.simple words) redirections, rest)

/-- What follows `if` or `elif`, up to `fi`. -/
def readConditional : (fuel : Nat) → List Symbol → Option (Command × List Symbol)
  | 0, _ => none
  | fuel + 1, symbols => do
    let (condition, rest) ← readList fuel symbols
    let rest ← afterWord? "then" rest
    let (yes, rest) ← readList fuel rest
    match leadingWord? rest with
    | some "elif" => do
      let (no, rest) ← readConditional fuel rest.tail
      some (.conditional condition yes no, rest)
    | some "else" => do
      let (no, rest) ← readList fuel rest.tail
      some (.conditional condition yes no, ← afterWord? "fi" rest)
    | _ => do some (.conditional condition yes .skip, ← afterWord? "fi" rest)

/-- What follows `while` or `until`. -/
def readLoop : (fuel : Nat) → (whileFails : Bool) → List Symbol → Option (Command × List Symbol)
  | 0, _, _ => none
  | fuel + 1, whileFails, symbols => do
    let (condition, rest) ← readList fuel symbols
    let (body, rest) ← readList fuel (← afterWord? "do" rest)
    some (.loop whileFails condition body, ← afterWord? "done" rest)

/-- What follows `for`. -/
def readForEach : (fuel : Nat) → List Symbol → Option (Command × List Symbol)
  | 0, _ => none
  | fuel + 1, symbols => do
    let name ← leadingWord? symbols
    let rest ← afterWord? "in" symbols.tail
    let (items, rest) := takeWords rest
    let rest ← match rest with
      | .operator ";" :: rest | .operator "\n" :: rest => some (skipLines rest)
      | _ => none
    let (body, rest) ← readList fuel (← afterWord? "do" rest)
    some (.forEach name items body, ← afterWord? "done" rest)

end

/-- The command that a script is, if it can be read. -/
def Command.ofScript? (script : List Char) : Option Command := do
  let symbols ← symbols (2 * script.length + 4) script
  match ← readList (8 * symbols.length + 8) symbols with
  | (command, []) => some command
  | _ => none

end PromptPipeline.Shell
