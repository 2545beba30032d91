import Distfix.Outcome
import Distfix.SyntaxTree

namespace Distfix

structure Resolution where
  tree : SyntaxTree
  length : Nat
  errors : List ParseError

namespace Resolution

def further (r : Resolution) : Resolution := { r with length := r.length + 1 }

def after (r : Resolution) (errors : List ParseError) : Resolution :=
  { r with errors := errors ++ r.errors }

end Resolution

/-- A blank that does not end an expression. -/
def Operand.isSkipped (stop : Bool) : Operand → Bool
  | .token t => t.kind == .whitespace || (t.kind == .newline && !stop)
  | .operator _ => false

namespace Resolution

/- In all that follows `ends` is the offset at which the last item ends. -/
variable (ends : Nat)

mutual

/-- One expression from the items, of which the first has number `i`. Operators to the right of
an operand extend it only if their left power is above `min`. Blanks before the expression are
skipped; after it a newline ends the expression if `stop` is set or an operator keeps newlines. -/
def expression : List Operand → Nat → Nat → Bool → Resolution
  | [], i, _, _ => ⟨.missing ends, 0, [⟨i, .valueExpected⟩]⟩
  | .token t :: items, i, min, stop =>
    if t.isBlank then (expression items (i + 1) min stop).further
    else (extension (.leaf (.token t)) items 0 (i + 1) min stop).further
  | .operator o :: items, i, min, stop =>
    let item := Operand.operator o
    let missing := SyntaxTree.missing o.span.start
    let fault : ParseError := ⟨i, .invalidLeadingOperator o.op⟩
    match o.definition.fixity with
    | .closed => (extension (.leaf item) items 0 (i + 1) min stop).further
    | .after _ => ((extension (.after item missing) items 0 (i + 1) min stop).after [fault]).further
    | .before right =>
      let stop := stop || o.definition.keepsNewline
      let rhs := expression items (i + 1) right stop
      ((extension (.before item rhs.tree) items rhs.length (i + 1) min stop).after
        rhs.errors).further
    | .between _ right =>
      let stop := stop || o.definition.keepsNewline
      let rhs := expression items (i + 1) right stop
      ((extension (.between item missing rhs.tree) items rhs.length (i + 1) min stop).after
        (fault :: rhs.errors)).further

/-- The expression that begins with `lhs`, from the items after it. The first `skip` of these
belong to `lhs`. -/
def extension (lhs : SyntaxTree) : List Operand → Nat → Nat → Nat → Bool → Resolution
  | [], _, _, _, _ => ⟨lhs, 0, []⟩
  | _ :: items, skip + 1, i, min, stop => (extension lhs items skip (i + 1) min stop).further
  | .token t :: items, 0, i, min, stop =>
    if (Operand.token t).isSkipped stop then
      let r := extension lhs items 0 (i + 1) min stop
      if r.length = 0 then r else r.further
    else ⟨lhs, 0, []⟩
  | .operator o :: items, 0, i, min, stop =>
    let item := Operand.operator o
    match o.definition.fixity with
    | .after left =>
      if left ≤ min then ⟨lhs, 0, []⟩
      else (extension (.after item lhs) items 0 (i + 1) min stop).further
    | .between left right =>
      if left ≤ min then ⟨lhs, 0, []⟩
      else
        let stop := stop || o.definition.keepsNewline
        let rhs := expression items (i + 1) right stop
        ((extension (.between item lhs rhs.tree) items rhs.length (i + 1) min stop).after
          rhs.errors).further
    | .before _ | .closed => ⟨lhs, 0, []⟩

end

/-- All expressions from the items, of which the first `skip` belong to the one before and the next
has number `i`. -/
def program : List Operand → Nat → Nat → Outcome (List SyntaxTree)
  | [], _, i => ⟨i, [], []⟩
  | _ :: items, skip + 1, i => program items skip i
  | item :: items, 0, i =>
    if item.isBlank then program items 0 (i + 1)
    else
      let r := expression ends (item :: items) i 0 false
      let rest := program items (r.length - 1) (i + r.length)
      ⟨rest.next, r.tree :: rest.value, r.errors ++ rest.errors⟩

end Resolution

def endOffset (items : List Operand) : Nat := (items.getLast?.map (·.span.stop)).getD 0

def resolve (items : List Operand) (index min : Nat) (keepNewline : Bool) : Outcome SyntaxTree :=
  let r := Resolution.expression (endOffset items) (items.drop index) index min keepNewline
  ⟨index + r.length, r.tree, r.errors⟩

def resolveAll (items : List Operand) : Outcome (List SyntaxTree) :=
  Resolution.program (endOffset items) items 0 0

end Distfix
