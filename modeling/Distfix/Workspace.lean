import Distfix.Table.Build

namespace Distfix

inductive Operation where
  | new
  | including (id : OperatorId) (d : Definition) (of : String)
  | insert (id : OperatorId) (d : Definition) (of : String)
  | remove (id : OperatorId) (of : String)
  | merged (left right : String)
  | replace (scope of : String)
  | extend (additions of : String)
  | without (ids : List OperatorId) (of : String)
  | build (t : Table)

/-- The scope that is made. Inserting and removing answer with the definition that the id was bound
to. -/
def Operation.run (scopes : String → Scope) : Operation → Build (Option DefinitionRef × Scope)
  | new => return (none, .empty)
  | including id d of => return (none, ← Build.insert (scopes of) id d)
  | insert id d of => Build.put (scopes of) id d
  | remove id of => return (scopes of).take id
  | merged left right => return (none, (scopes left).merged (scopes right))
  | replace scope of => return (none, (← get).apply (.replace (scopes scope)) (scopes of))
  | extend additions of => return (none, (← get).apply (.extend (scopes additions)) (scopes of))
  | without ids of => return (none, (← get).apply (.without ids) (scopes of))
  | build t => return (none, ← t.build)

structure Step where
  into : String
  operation : Operation

structure Workspace where
  catalog : Catalog
  scopes : String → Scope

namespace Workspace

def empty : Workspace := ⟨.empty, fun _ => .empty⟩

def keep (scopes : String → Scope) (name : String) (s : Scope) : String → Scope := fun n =>
  if n = name then s else scopes n

/-- A step that fails leaves the workspace as it is. -/
def step (w : Workspace) (s : Step) :
    Except GrammarError (Option DefinitionRef) × Workspace :=
  match s.operation.run w.scopes w.catalog with
  | .ok ((answer, scope), c) => (.ok answer, ⟨c, keep w.scopes s.into scope⟩)
  | .error e => (.error e, w)

def run (w : Workspace) : List Step → List (Except GrammarError (Option DefinitionRef)) × Workspace
  | [] => ([], w)
  | s :: ss =>
    let first := w.step s
    let rest := run first.2 ss
    (first.1 :: rest.1, rest.2)

def operator? (w : Workspace) (name : String) (id : OperatorId) : Option Definition :=
  w.catalog.operator? (w.scopes name) id

end Workspace

end Distfix
