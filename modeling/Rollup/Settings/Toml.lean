import Rollup.Failure
import Rollup.Timezone
import Rollup.Toml.Document

/-!
# Settings

What may be pushed down, and the time zone of expressions that name none. Settings are read from a
document with the keys `push_grouping_sets`, `script_fallback` and `timezone`. Missing keys take
their default values and other keys are ignored.
-/

namespace Rollup

/-- Settings of the pushdown. -/
structure Settings where
  /-- Aggregates over an expansion are pushed, one query per grouping set. -/
  pushGroupingSets : Bool := true
  /-- Scripts may stand in where the store has no native form. -/
  scriptFallback : Bool := true
  /-- Zone of time expressions that name none. -/
  timezone : String := "UTC"
  deriving DecidableEq

namespace Settings

/-- Everything may be pushed. -/
def allEnabled : Settings := {}

/-- Neither grouping sets nor scripts may be pushed. -/
def allDisabled : Settings := { pushGroupingSets := false, scriptFallback := false }

/-- The zone must be known. -/
def validate (s : Settings) : Except Failure Unit :=
  if Timezone.isKnown s.timezone then .ok ()
  else .error (.invalidConfig ("unknown timezone '" ++ s.timezone ++ "'"))

/-- Settings are valid exactly if their zone is known. -/
theorem validate_eq_ok_iff (s : Settings) :
    s.validate = .ok () ↔ Timezone.isKnown s.timezone = true := by
  unfold validate
  split <;> simp_all

/-! ## Settings from TOML -/

/-- The boolean of a name, or the default if the document does not have the name. -/
def boolean (document : Toml.Entries) (name : String) (default : Bool) : Except Failure Bool :=
  match document.get? name with
  | none => .ok default
  | some (.scalar (.boolean b)) => .ok b
  | some _ => .error (.invalidConfig (name ++ " must be a boolean"))

/-- The text of a name, or the default if the document does not have the name. -/
def text (document : Toml.Entries) (name : String) (default : String) : Except Failure String :=
  match document.get? name with
  | none => .ok default
  | some (.scalar (.text s)) => .ok s
  | some _ => .error (.invalidConfig (name ++ " must be a string"))

/-- Settings of a document; the zone is checked last. -/
def ofToml (source : String) : Except Failure Settings := do
  let some document := Toml.read? source | throw (.invalidConfig "not a TOML document")
  let pushGroupingSets ← boolean document "push_grouping_sets" allEnabled.pushGroupingSets
  let scriptFallback ← boolean document "script_fallback" allEnabled.scriptFallback
  let timezone ← text document "timezone" allEnabled.timezone
  let settings : Settings := { pushGroupingSets, scriptFallback, timezone }
  settings.validate
  return settings

end Settings

end Rollup
