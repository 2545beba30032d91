import Distfix.Definition
import Distfix.Token

namespace Distfix

mutual

/-- What an expression is made of: a token, or all the keywords of an operator together with
what stands between them. -/
inductive Operand where
  | token (token : Token)
  | operator (found : Instance)

structure Instance where
  op : OperatorId
  definition : Definition
  leading : Token
  children : List Child

structure Child where
  index : Nat
  keyword : Token
  operands : List Operand

end

mutual

def Operand.tokens : Operand → List Token
  | .token t => [t]
  | .operator i => i.tokens

def Instance.tokens : Instance → List Token
  | ⟨_, _, _, children⟩ => Child.tokensOf children

def Child.tokens : Child → List Token
  | ⟨_, keyword, operands⟩ => Operand.tokensOf operands ++ [keyword]

def Child.tokensOf : List Child → List Token
  | [] => []
  | c :: cs => c.tokens ++ Child.tokensOf cs

def Operand.tokensOf : List Operand → List Token
  | [] => []
  | o :: os => o.tokens ++ Operand.tokensOf os

end

theorem Child.tokensOf_eq_flatMap (cs : List Child) :
    Child.tokensOf cs = cs.flatMap Child.tokens := by
  induction cs with
  | nil => rfl
  | cons c cs ih => rw [Child.tokensOf, ih, List.flatMap_cons]

theorem Operand.tokensOf_eq_flatMap (os : List Operand) :
    Operand.tokensOf os = os.flatMap Operand.tokens := by
  induction os with
  | nil => rfl
  | cons o os ih => rw [Operand.tokensOf, ih, List.flatMap_cons]

namespace Instance

def span (i : Instance) : Span :=
  match i.children.getLast? with
  | some last => ⟨i.leading.span.start, last.keyword.span.stop⟩
  | none => i.leading.span

def separator (i : Instance) (index : Nat) : List Child := i.children.filter (·.index == index)

def count (i : Instance) (index : Nat) : Nat := (i.separator index).length

/-- The leading keyword is all there is. -/
def isBare (i : Instance) : Bool :=
  match i.children with
  | [c] => c.operands.isEmpty
  | _ => false

end Instance

namespace Operand

def isBlank : Operand → Bool
  | token t => t.isBlank
  | operator _ => false

def isSynthetic : Operand → Bool
  | token t => t.isSynthetic
  | operator _ => false

def span : Operand → Span
  | token t => t.span
  | operator i => i.span

end Operand

mutual

def Operand.depth : Operand → Nat
  | .token _ => 0
  | .operator i => i.depth

def Instance.depth : Instance → Nat
  | ⟨_, _, _, children⟩ => Child.depthOf children + 1

def Child.depth : Child → Nat
  | ⟨_, _, operands⟩ => Operand.depthOf operands

def Child.depthOf : List Child → Nat
  | [] => 0
  | c :: cs => max c.depth (Child.depthOf cs)

def Operand.depthOf : List Operand → Nat
  | [] => 0
  | o :: os => max o.depth (Operand.depthOf os)

end

theorem Operand.depth_le_depthOf {o : Operand} {os : List Operand} (h : o ∈ os) :
    o.depth ≤ Operand.depthOf os := by
  induction os with
  | nil => simp at h
  | cons a os ih =>
    rw [Operand.depthOf]
    obtain rfl | h := List.mem_cons.mp h
    · exact Nat.le_max_left _ _
    · exact Nat.le_trans (ih h) (Nat.le_max_right _ _)

theorem Child.depth_le_depthOf {c : Child} {cs : List Child} (h : c ∈ cs) :
    c.depth ≤ Child.depthOf cs := by
  induction cs with
  | nil => simp at h
  | cons a cs ih =>
    rw [Child.depthOf]
    obtain rfl | h := List.mem_cons.mp h
    · exact Nat.le_max_left _ _
    · exact Nat.le_trans (ih h) (Nat.le_max_right _ _)

mutual

/-- An operator shows its keywords and its operands in brackets, without the blank tokens. -/
def Operand.render : Operand → String
  | .token t => t.render
  | .operator i => i.render

def Instance.render : Instance → String
  | ⟨op, definition, leading, children⟩ =>
    if Instance.isBare ⟨op, definition, leading, children⟩ then leading.render
    else "[" ++ " ".intercalate (Child.renderings children) ++ "]"

def Child.renderings : List Child → List String
  | [] => []
  | ⟨_, keyword, operands⟩ :: cs =>
      Operand.renderings operands ++ keyword.render :: Child.renderings cs

def Operand.renderings : List Operand → List String
  | [] => []
  | o :: os => if o.isBlank then Operand.renderings os else o.render :: Operand.renderings os

end

end Distfix
