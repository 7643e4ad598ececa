import Tint.Editor.Highlighter
import Tint.Log
import Tint.Settings.Basic
set_option autoImplicit false

/-!
# Work that may fail

A run works through its stages in order, and the first failure ends it; what has been logged
until then stays.  `Work` is a stage's result together with its log records.
-/

namespace Tint

/-- Why a run failed. -/
inductive RunError where
  /-- the settings file the user named is of no use -/
  | settings (path : Path) (error : SettingsError)
  /-- no rule file is named anywhere -/
  | noRules
  /-- an input file could not be read -/
  | input (path : Path) (fault : Fault)
  /-- the standard input could not be read, or a result not be written -/
  | stream (fault : Fault)
  /-- the rule file could not be loaded -/
  | load (error : LoadError)
  deriving DecidableEq, Repr, Inhabited

/-- The report on a failed run. -/
def RunError.message : RunError → Text
  | .settings path error => error.message path
  | .noRules =>
    "No rule file given (use --rules or set `rules` in the settings file)".toList
  | .input path fault => "Cannot read ".toList ++ path.display ++ ": ".toList ++ fault.message
  | .stream fault => "I/O error: ".toList ++ fault.message
  | .load error => error.message

/-- The record with which a failed run ends. -/
def RunError.record (e : RunError) : LogRecord := ⟨.error, .command, e.message⟩

/-- A result or failure, and what was logged on the way. -/
structure Work (α : Type) where
  result : Except RunError α
  log : List LogRecord := []
  deriving Repr

namespace Work

variable {α β : Type}

/-- Work that is done. -/
def done (a : α) : Work α := ⟨.ok a, []⟩

/-- Work that fails. -/
def fail (e : RunError) : Work α := ⟨.error e, []⟩

/-- Work that only logs. -/
def report (records : List LogRecord) : Work Unit := ⟨.ok (), records⟩

/-- Goes on with the result, unless there is none. -/
def andThen (w : Work α) (f : α → Work β) : Work β :=
  match w.result with
  | .ok a => ⟨(f a).result, w.log ++ (f a).log⟩
  | .error e => ⟨.error e, w.log⟩

instance : Monad Work where
  pure := done
  bind := andThen

/-- The result, or the failure given for none. -/
def ofOption (e : RunError) : Option α → Work α
  | some a => done a
  | none => fail e

/-- A result or failure without a log. -/
def ofExcept (r : Except RunError α) : Work α := ⟨r, []⟩

@[simp] theorem result_pure (a : α) : (pure a : Work α).result = .ok a := rfl

@[simp] theorem log_pure (a : α) : (pure a : Work α).log = [] := rfl

theorem bind_ok {w : Work α} {a : α} (f : α → Work β) (h : w.result = .ok a) :
    w >>= f = ⟨(f a).result, w.log ++ (f a).log⟩ := by
  simp [bind, andThen, h]

theorem bind_error {w : Work α} {e : RunError} (f : α → Work β) (h : w.result = .error e) :
    w >>= f = ⟨.error e, w.log⟩ := by
  simp [bind, andThen, h]

theorem ofExcept_bind (r : Except RunError α) (f : α → Except RunError β) :
    (ofExcept r >>= fun a => ofExcept (f a)) = ofExcept (r >>= f) := by
  cases r <;> rfl

end Work

end Tint
