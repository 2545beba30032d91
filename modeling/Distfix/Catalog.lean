import Distfix.Definition
import Distfix.Scope

namespace Distfix

/-- The definitions, generators and directories that have been made. Each one is made once and known
by its place from then on. Scopes are added to a directory after the generators that refer to it, so
that they can name one another in a cycle. -/
structure Catalog where
  definitions : Array Definition
  generators : Array Generator
  directories : Array Directory

namespace Catalog

def empty : Catalog := ⟨#[], #[], #[]⟩

def definition? (c : Catalog) (r : DefinitionRef) : Option Definition := c.definitions[r.index]?

def generator? (c : Catalog) (r : GeneratorRef) : Option Generator := c.generators[r.index]?

def named? (c : Catalog) (r : DirectoryRef) (name : String) : Option Scope :=
  c.directories[r.index]?.bind (·.lookup name)

def operators (c : Catalog) (s : Scope) : List (OperatorId × Definition) :=
  s.entries.filterMap fun e => (c.definition? e.2).map fun d => (e.1, d)

def operator? (c : Catalog) (s : Scope) (id : OperatorId) : Option Definition :=
  (s.get? id).bind c.definition?

/-- Equal by value: the same ids in order, bound to equal definitions. -/
def sameValue (c : Catalog) (s t : Scope) : Bool :=
  s.ids = t.ids &&
    s.entries.map (fun e => c.definition? e.2) = t.entries.map fun e => c.definition? e.2

/-- A name that is not in its directory leaves the enclosing scope as it is. -/
def apply (c : Catalog) : Generator → Scope → Scope
  | .replace scope, _ => scope
  | .extend additions, enclosing => enclosing.merged additions
  | .without ids, enclosing => enclosing.without ids
  | .named directory name inherit, enclosing =>
    match c.named? directory name with
    | some scope => if inherit then enclosing.merged scope else scope
    | none => enclosing
  | .custom derive, enclosing => derive enclosing

def derive (c : Catalog) (region : Option GeneratorRef) (enclosing : Scope) : Scope :=
  match region.bind c.generator? with
  | some g => c.apply g enclosing
  | none => enclosing

def render (c : Catalog) (s : Scope) : String :=
  String.join ((c.operators s).map fun o => o.1 ++ " = " ++ o.2.render ++ "\n")

/-- Every call makes a definition of its own. -/
def define (c : Catalog) (d : Definition) : DefinitionRef × Catalog :=
  (⟨c.definitions.size⟩, { c with definitions := c.definitions.push d })

def register (c : Catalog) (g : Generator) : GeneratorRef × Catalog :=
  (⟨c.generators.size⟩, { c with generators := c.generators.push g })

def openDirectory (c : Catalog) : DirectoryRef × Catalog :=
  (⟨c.directories.size⟩, { c with directories := c.directories.push [] })

/-- What was stored under the name before is found no more. -/
def store (c : Catalog) (r : DirectoryRef) (name : String) (s : Scope) : Catalog :=
  { c with directories := c.directories.modify r.index ((name, s) :: ·) }

def put (c : Catalog) (s : Scope) (id : OperatorId) (d : Definition) :
    (Option DefinitionRef × Scope) × Catalog :=
  let (r, c) := c.define d
  (s.put id r, c)

def insert (c : Catalog) (s : Scope) (id : OperatorId) (d : Definition) : Scope × Catalog :=
  let ((_, s), c) := c.put s id d
  (s, c)

def scope (c : Catalog) (operators : List (OperatorId × Definition)) : Scope × Catalog :=
  operators.foldl (fun (s, c) o => c.insert s o.1 o.2) (.empty, c)

end Catalog

/-- Grammar construction: it adds to a catalog, and a fault leaves nothing behind. -/
abbrev Build := StateT Catalog (Except GrammarError)

namespace Build

def register (g : Generator) : Build GeneratorRef := fun c => .ok (c.register g)

def openDirectory : Build DirectoryRef := fun c => .ok c.openDirectory

def store (r : DirectoryRef) (name : String) (s : Scope) : Build Unit := fun c =>
  .ok ((), c.store r name s)

def put (s : Scope) (id : OperatorId) (d : Definition) : Build (Option DefinitionRef × Scope) :=
  fun c => .ok (c.put s id d)

def insert (s : Scope) (id : OperatorId) (d : Definition) : Build Scope := fun c =>
  .ok (c.insert s id d)

def scope (operators : List (OperatorId × Definition)) : Build Scope := fun c =>
  .ok (c.scope operators)

end Build

end Distfix
