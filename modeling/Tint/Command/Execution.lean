import Tint.Command.Program
import Tint.Files.FileTree
set_option autoImplicit false

/-!
# Executions

An execution of the command is its program carried out over a file tree.  What the program reads is
what the tree holds at that time, so files that it has written are read as written.
-/

namespace Tint

/-- What a program leaves behind. -/
structure Outcome (α : Type) where
  result : α
  stdout : Text := []
  tree : FileTree
  log : List LogRecord := []

/-- Carries out a program over a file tree, where `stdin` is what the standard input holds. -/
def Program.execute {α : Type} (stdin : Except Fault Text) (tree : FileTree) :
    Program α → Outcome α
  | .done a => { result := a, tree := tree }
  | .report records next =>
    let x := next.execute stdin tree
    { x with log := records ++ x.log }
  | .readFile path next => (next (tree.read path)).execute stdin tree
  | .readStdin next => (next stdin).execute stdin tree
  | .writeFile path text next =>
    match tree.write path text with
    | .error fault => (next (.error fault)).execute stdin tree
    | .ok after => (next (.ok ())).execute stdin after
  | .print text next =>
    let x := next.execute stdin tree
    { x with stdout := text ++ x.stdout }

/-- What an execution of the command leaves behind. -/
structure Execution where
  exit : Nat
  stdout : Text := []
  tree : FileTree
  log : List LogRecord := []

/-- Executes the command with arguments over a file tree. -/
def Execution.ofArguments (tree : FileTree) (stdin : Except Fault Text) (home : Option Text)
    (arguments : List Bytes) : Execution :=
  let x := (Program.ofArguments home arguments).execute stdin tree
  { exit := x.result, stdout := x.stdout, tree := x.tree, log := x.log }

end Tint
