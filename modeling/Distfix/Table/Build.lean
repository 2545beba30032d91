import Distfix.Catalog
import Distfix.Table.Basic

namespace Distfix

namespace Table

def firstRepeated (seen : List String) : List String → Option String
  | [] => none
  | t :: ts => if t ∈ seen then some t else firstRepeated (t :: seen) ts

/-- Each operator is checked for its id before its references. -/
def checkOperators (names : List String) (scope : String) :
    List String → List OperatorEntry → Except GrammarError Unit
  | _, [] => .ok ()
  | seen, o :: os =>
    if o.id ∈ seen then .error (.duplicatedOperator scope o.id)
    else
      match o.references.find? (·.name ∉ names) with
      | some r => .error (.undefinedScope r.name)
      | none => checkOperators names scope (o.id :: seen) os

def checkNames (t : Table) : Except GrammarError Unit :=
  let names := t.scopes.map ScopeEntry.name
  match firstRepeated [] names with
  | some name => .error (.duplicatedScope name)
  | none => t.scopes.forM fun s => checkOperators names s.name [] s.operators

section

variable (directory : DirectoryRef)

/-- The scope of a region is looked up when the generator is applied. -/
def buildSeparator (s : SeparatorEntry) : Build Separator := do
  let repeats ← Repeats.between s.min.toNat (.ofOption (s.max.map UInt64.toNat))
  let separator ← Separator.ofList s.tokens repeats
  match s.scope with
  | none => return separator
  | some r => return separator.withRegion (← Build.register (.named directory r.name r.inherit))

def buildDefinition (o : OperatorEntry) : Build Definition := do
  let separators ← o.separators.mapM (buildSeparator directory)
  let d ← Definition.ofSeparators separators
    (.ofPowers (o.left.map UInt32.toNat) (o.right.map UInt32.toNat))
  return if o.keepsNewline then d.keepNewline else d

def buildOperator (o : OperatorEntry) : Build Definition := fun c =>
  (buildDefinition directory o c).mapError (.inOperator o.id)

def addOperator (scope : Scope) (o : OperatorEntry) : Build Scope := do
  Build.insert scope o.id (← buildOperator directory o)

end

def scope? (t : Table) (name : String) : Option ScopeEntry := t.scopes.find? (·.name = name)

def buildScope (t : Table) (directory : DirectoryRef) (name : String) : Build Scope := do
  match t.scope? name with
  | some s => s.operators.foldlM (addOperator directory) .empty
  | none => throw (.undefinedScope name)

/-- Checks the names, then builds all scopes in order. Each one is stored when it is finished, in
the directory in which the generators look for the others. -/
def build (t : Table) : Build Scope := do
  t.checkNames
  let directory ← Build.openDirectory
  t.scopes.forM fun s => do Build.store directory s.name (← t.buildScope directory s.name)
  match (← get).named? directory t.top with
  | some scope => return scope
  | none => throw (.undefinedScope t.top)

end Table

end Distfix
