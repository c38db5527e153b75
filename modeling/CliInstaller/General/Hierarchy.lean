import Mathlib.Data.List.Nodup

/-!
# Nodes that are created under their parents

A node can be created where its parent is there and it is not there itself. A list of nodes can be
created in turn iff no node is repeated or there already, and each stands behind its parent.

## Main definitions

* `Creatable parent present nodes`: the nodes can be created in turn

## Main results

* `creatable_iff`: in terms of the places in the list
-/

namespace Hierarchy

variable {α : Type} {parent : α → α} {present nodes : List α}

/-- The nodes can be created one after the other. -/
def Creatable (parent : α → α) : List α → List α → Prop
  | _, [] => True
  | present, x :: nodes =>
    (parent x ∈ present ∧ x ∉ present) ∧ Creatable parent (present ++ [x]) nodes

/-- **When nodes can be created in turn**: none is repeated or there already, and the parent of each is
there or stands before it. -/
theorem creatable_iff :
    Creatable parent present nodes ↔
      nodes.Nodup ∧ (∀ x ∈ nodes, x ∉ present) ∧
        ∀ before x after, nodes = before ++ x :: after → parent x ∈ present ++ before := by
  induction nodes generalizing present with
  | nil => simp [Creatable]
  | cons x nodes ih =>
    simp only [Creatable, ih, List.nodup_cons, List.forall_mem_cons]
    constructor
    · rintro ⟨⟨hparent, hx⟩, hnodup, hnew, hbefore⟩
      refine ⟨⟨fun hmem => hnew x hmem (by simp), hnodup⟩,
        ⟨hx, fun y hy hpresent => hnew y hy (List.mem_append_left _ hpresent)⟩, ?_⟩
      rintro before y after hsplit
      rcases before with _ | ⟨z, before⟩
      · obtain ⟨rfl, -⟩ := List.cons.inj hsplit
        rwa [List.append_nil]
      · obtain ⟨rfl, htail⟩ := List.cons.inj hsplit
        have hy := hbefore before y after htail
        rwa [List.append_assoc] at hy
    · rintro ⟨⟨hmem, hnodup⟩, ⟨hx, hnew⟩, hbefore⟩
      have hparent := hbefore [] x nodes rfl
      rw [List.append_nil] at hparent
      refine ⟨⟨hparent, hx⟩, hnodup, fun y hy hpresent => ?_, fun before y after hsplit => ?_⟩
      · rcases List.mem_append.mp hpresent with hpresent | hpresent
        · exact hnew y hy hpresent
        · exact hmem (List.mem_singleton.mp hpresent ▸ hy)
      · have hy := hbefore (x :: before) y after (by rw [hsplit, List.cons_append])
        rwa [List.append_assoc]

end Hierarchy
