import Rollup.Failure
import Rollup.Grouping.Set
import Rollup.Query.Basic
import Rollup.Settings.Toml

/-!
# Scopes

What is known, besides the query so far, where an expression is brought into native form: the
settings, the script compiler, the row of the expansion, the overrides of the grouping set, and the
store columns that renamed columns read. A script compiler turns a host expression into a function
in the script language of the store, or fails. It sees the query so far, and through it the
relation, and depends on nothing else.
-/

namespace Rollup

/-- What a script computes: one value of each row, or one value of each group. -/
inductive ScriptScope where
  | row
  | aggregate
  deriving DecidableEq

/-- Turns an expression over store columns into a script, given the query so far and the zone of
time expressions. -/
abbrev ScriptCompiler := Query → Expr → ScriptScope → String → Except Failure ScriptFunction

/-- The compiler of a store without scripts. -/
def ScriptCompiler.none : ScriptCompiler := fun _ e _ _ =>
  .error (.scriptCompilation ("scripting disabled: " ++ e.render))

/-- Surroundings of an expression that is brought into native form. -/
structure Scope where
  settings : Settings
  scripts : ScriptCompiler
  row? : Option ExpansionRow
  overrides : Table ExprId Expr
  storeColumns : Table ExprId String

namespace Scope

/-- A column under the name of the store column that it reads. -/
def storeColumn? (s : Scope) (attr : Attribute) : Option Expr :=
  (s.storeColumns.get? attr.id).map fun name => .column { attr with name }

/-- Names every column after the store column that it reads. -/
def withStoreNames (s : Scope) (e : Expr) : Expr := e.mapColumns s.storeColumn?

/-- What an expression stands for in the row of the expansion. -/
def inRowOf (s : Scope) (e : Expr) : Expr :=
  match s.row? with
  | some row => row.resolve e
  | none => e

/-- An expression over the relation of the store: resolved in the row of the expansion, its columns
named after those of the store. -/
def resolve (s : Scope) (e : Expr) : Expr := s.withStoreNames (s.inRowOf e)

/-- The host fills in a constant for this identity. -/
def isOverridden (s : Scope) (id : ExprId) : Bool := s.overrides.contains id

/-- Store column that an expression reads, under its numeric casts. -/
def column? (s : Scope) (q : Query) (e : Expr) : Option Column :=
  (s.resolve e).stripNumericCasts.column?.bind fun attr => q.relation.column? attr.name

/-- Store column that the single argument of an aggregate reads. -/
def argumentColumn? (s : Scope) (q : Query) (call : AggregateCall) : Option Column :=
  call.singleArg?.bind (s.column? q)

/-- Script for an expression, if scripts are allowed and there is one. -/
def compile? (s : Scope) (q : Query) (e : Expr) (scope : ScriptScope) : Option ScriptFunction :=
  if s.settings.scriptFallback then (s.scripts q e scope s.settings.timezone).toOption else none

end Scope

end Rollup
