import Distfix.Proofs.Items
import Distfix.Proofs.Structure

namespace Distfix

def Token.unplaced (t : Token) : Token := { t with span := ⟨0, 0⟩ }

/-- The tokens that are more than layout, without their places. A newline is layout unless `lines`
is set. -/
def Token.essence (lines : Bool) (ts : List Token) : List Token :=
  (ts.filter fun t => !(Operand.token t).isSkipped lines).map unplaced

mutual

def Operand.essence (lines : Bool) : Operand → Operand
  | .token t => .token t.unplaced
  | .operator i => .operator (i.essence lines)

def Instance.essence (lines : Bool) : Instance → Instance
  | ⟨op, definition, leading, children⟩ =>
    ⟨op, definition, leading.unplaced, Child.essences lines children⟩

def Child.essences (lines : Bool) : List Child → List Child
  | [] => []
  | ⟨index, keyword, operands⟩ :: cs =>
    ⟨index, keyword.unplaced, Operand.essences lines operands⟩ :: Child.essences lines cs

def Operand.essences (lines : Bool) : List Operand → List Operand
  | [] => []
  | o :: os =>
    if o.isSkipped lines then Operand.essences lines os
    else o.essence lines :: Operand.essences lines os

end

variable {lines : Bool}

namespace Token

theorem essence_append (ts us : List Token) :
    essence lines (ts ++ us) = essence lines ts ++ essence lines us := by
  simp [essence]

theorem essence_cons (t : Token) (ts : List Token) :
    essence lines (t :: ts) =
      if (Operand.token t).isSkipped lines then essence lines ts
      else t.unplaced :: essence lines ts := by
  cases h : (Operand.token t).isSkipped lines <;> simp [essence, h]

theorem render_unplaced (t : Token) : t.unplaced.render = t.render := rfl

end Token

namespace Operand

theorem essences_eq (os : List Operand) :
    essences lines os = (os.filter (!·.isSkipped lines)).map (essence lines) := by
  induction os with
  | nil => rfl
  | cons o os ih =>
    rw [essences, ih]
    cases h : o.isSkipped lines <;> simp [h]

theorem essences_cons_skipped {o : Operand} (h : o.isSkipped lines = true) (os : List Operand) :
    essences lines (o :: os) = essences lines os := by
  rw [essences, if_pos h]

theorem essences_cons_kept {o : Operand} (h : o.isSkipped lines = false) (os : List Operand) :
    essences lines (o :: os) = o.essence lines :: essences lines os := by
  rw [essences, if_neg (by simp [h])]

theorem mem_essences {o : Operand} {os : List Operand} (h : o ∈ os)
    (hs : o.isSkipped lines = false) : o.essence lines ∈ essences lines os := by
  rw [essences_eq]
  exact List.mem_map_of_mem (List.mem_filter.mpr ⟨h, by rw [hs]; rfl⟩)

theorem isBlank_essence (o : Operand) : (o.essence lines).isBlank = o.isBlank := by
  cases o <;> rfl

end Operand

namespace Instance

theorem op_essence (i : Instance) : (i.essence lines).op = i.op := by
  cases i
  rfl

theorem definition_essence (i : Instance) : (i.essence lines).definition = i.definition := by
  cases i
  rfl

end Instance

variable {c : Catalog}

mutual

theorem Operand.render_essence (lines : Bool) :
    ∀ o : Operand, (∀ i, o = .operator i → c.Finds i) → (o.essence lines).render = o.render
  | .token t, _ => t.render_unplaced
  | .operator i, h => i.render_essence lines (h i rfl)

theorem Instance.render_essence (lines : Bool) :
    ∀ i : Instance, c.Finds i → (i.essence lines).render = i.render
  | ⟨op, definition, leading, children⟩, h => by
    have hcs := Child.renderings_essences lines children fun k hk j hj => h.nested hk hj
    obtain ⟨cs, hc⟩ := h.wellFormed.leading
    obtain rfl : children = ⟨0, leading, []⟩ :: cs := hc
    have hbare : Instance.isBare ⟨op, definition, leading.unplaced,
          Child.essences lines (⟨0, leading, []⟩ :: cs)⟩ =
        Instance.isBare ⟨op, definition, leading, ⟨0, leading, []⟩ :: cs⟩ := by
      obtain _ | ⟨⟨_, _, _⟩, _⟩ := cs <;> rfl
    rw [Instance.essence, Instance.render, Instance.render, hbare, hcs, leading.render_unplaced]

theorem Child.renderings_essences (lines : Bool) :
    ∀ cs : List Child, (∀ k ∈ cs, ∀ i, .operator i ∈ k.operands → c.Finds i) →
      Child.renderings (Child.essences lines cs) = Child.renderings cs
  | [], _ => rfl
  | ⟨index, keyword, operands⟩ :: cs, h => by
    obtain ⟨hk, hcs⟩ := List.forall_mem_cons.mp h
    rw [Child.essences, Child.renderings, Child.renderings, keyword.render_unplaced,
      Operand.renderings_essences lines operands hk, Child.renderings_essences lines cs hcs]

theorem Operand.renderings_essences (lines : Bool) :
    ∀ os : List Operand, (∀ i, .operator i ∈ os → c.Finds i) →
      Operand.renderings (Operand.essences lines os) = Operand.renderings os
  | [], _ => rfl
  | o :: os, h => by
    have ho := Operand.render_essence lines o fun i hi => h i (by simp [hi])
    have hos := Operand.renderings_essences lines os fun i hi => h i (by simp [hi])
    rw [Operand.renderings]
    cases hs : o.isSkipped lines with
    | true =>
      rw [Operand.essences_cons_skipped hs, hos, if_pos (Operand.isBlank_of_isSkipped hs)]
    | false =>
      rw [Operand.essences_cons_kept hs, Operand.renderings, Operand.isBlank_essence, ho, hos]

end

end Distfix
