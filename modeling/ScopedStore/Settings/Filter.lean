import ScopedStore.Settings.Logging
import ScopedStore.Settings.Error

/-!
Which log records are written. The environment may give directives for the parts of the program;
otherwise the level of the settings counts for all of them.
-/

namespace ScopedStore.Settings

/-- The least important level that a part still writes, `none` for a part that writes nothing. -/
abbrev Threshold := Option Log.Level

/-- A directive counts for the targets that start with its own. -/
structure Directive where
  target : String := ""
  threshold : Threshold
  deriving DecidableEq

namespace Directive

/-- The names of thresholds, which are read in any case, and their numbers. -/
private def thresholdOf? (text : String) : Option Threshold :=
  [("off", none), ("0", none), ("error", some .error), ("1", some .error),
    ("warn", some .warn), ("2", some .warn), ("info", some .info), ("3", some .info),
    ("debug", some .debug), ("4", some .debug), ("trace", some .trace),
    ("5", some .trace)].lookup (String.ofList (text.toList.map Char.toLower))

private def isTarget (text : String) : Bool :=
  !text.isEmpty && text.toList.all fun c => c.isAlphanum || c = '_' || c = ':' || c = '-'

/-- Reads a level, a target, or a target with its level; a target alone writes everything. -/
def parse? (text : String) : Option Directive :=
  match thresholdOf? text with
  | some threshold => some { threshold := threshold }
  | none =>
    match text.splitOn "=" with
    | [target] => if isTarget target then some ⟨target, some .trace⟩ else none
    | [target, level] =>
      if !isTarget target then none
      else if level.isEmpty then some ⟨target, some .trace⟩
      else (thresholdOf? level).map fun threshold => ⟨target, threshold⟩
    | _ => none

/-- Reads directives between commas. Without any, only errors are written. -/
def parseAll? (text : String) : Option (List Directive) := do
  let parts := (text.splitOn ",").filter fun part => !part.isEmpty
  let directives ← parts.mapM parse?
  return if directives.isEmpty then [{ threshold := some .error }] else directives

end Directive

abbrev Filter := List Directive

namespace Filter

/-- The filter in force: the directives of the environment if they can be read, else the level of
the settings. -/
def ofEnvironment (text? : Option String) (logging : Logging) : Filter :=
  (text?.bind Directive.parseAll?).getD [{ threshold := some logging.level }]

/-- The directive for a target, the one with the longest target of its own. Of two directives for
one target the later counts. -/
def directiveFor? (filter : Filter) (target : String) : Option Directive :=
  (filter.filter fun d => d.target.toList.isPrefixOf target.toList).foldl (fun best d =>
    match best with
    | some found => if d.target.length < found.target.length then best else some d
    | none => some d) none

def allows (filter : Filter) (level : Log.Level) (target : String) : Bool :=
  match (filter.directiveFor? target).bind Directive.threshold with
  | some threshold => threshold.rank ≤ level.rank
  | none => false

def apply (filter : Filter) (log : List Log.Record) : List Log.Record :=
  log.filter fun record => filter.allows record.level record.target

end Filter

/-- Logging can be set up only once. -/
def Error.loggingIsSetUp : Error :=
  .logging "a global default trace dispatcher has already been set"

end ScopedStore.Settings
