import Mathlib.Data.List.Basic
import Mathlib.Data.List.Induction

/-!
Systems that take labelled steps, and their runs along a list of labels.
-/

namespace OracleNIO.LabelledRuns

variable {σ Label : Type*} {step step' : σ → Label → Option σ}
  {run run' : σ → List Label → Option σ}

/-- A run takes one step for each label. -/
structure Runs (step : σ → Label → Option σ) (run : σ → List Label → Option σ) : Prop where
  nil : ∀ s, run s [] = some s
  cons : ∀ s label labels, run s (label :: labels) = (step s label).bind fun s' => run s' labels

/-- The run has a step with `P`, and no step with `Q` after it. -/
def Since (run : σ → List Label → Option σ) (P Q : σ → Label → Prop) (s : σ)
    (labels : List Label) : Prop :=
  ∃ before label after s₁, labels = before ++ label :: after ∧ run s before = some s₁ ∧
    P s₁ label ∧ ∀ between label' rest s₂, after = between ++ label' :: rest →
      run s (before ++ label :: between) = some s₂ → ¬ Q s₂ label'

theorem within_of_take {p : σ → Bool} {s s₁ : σ} {labels before after : List Label}
    (h : ∀ k, k ≤ labels.length → (run s (labels.take k)).all p = true)
    (hlabels : labels = before ++ after) (hrun : run s before = some s₁) : p s₁ = true := by
  have hbefore := h before.length (by rw [hlabels, List.length_append]; exact Nat.le_add_right _ _)
  rw [hlabels, List.take_left' rfl, hrun] at hbefore
  exact hbefore

theorem since_concat {P Q : σ → Label → Prop} {s s₁ : σ} {labels : List Label} {label : Label}
    (hrun : run s labels = some s₁) :
    Since run P Q s (labels ++ [label]) ↔ P s₁ label ∨ Since run P Q s labels ∧ ¬ Q s₁ label := by
  constructor
  · rintro ⟨before, first, after, s₂, hlabels, hbefore, hfirst, hafter⟩
    rcases List.eq_nil_or_concat' after with rfl | ⟨after, last, rfl⟩
    · obtain ⟨rfl, heq⟩ := List.append_inj' hlabels rfl
      obtain rfl : label = first := List.head_eq_of_cons_eq heq
      rw [hrun] at hbefore
      obtain rfl := Option.some.inj hbefore
      exact .inl hfirst
    · rw [← List.cons_append, ← List.append_assoc] at hlabels
      obtain ⟨rfl, heq⟩ := List.append_inj' hlabels rfl
      obtain rfl : label = last := List.head_eq_of_cons_eq heq
      refine .inr ⟨⟨before, first, after, s₂, rfl, hbefore, hfirst, ?_⟩, ?_⟩
      · intro between other rest s₃ heq hbetween
        apply hafter between other (rest ++ [label]) s₃ ?_ hbetween
        rw [heq, List.append_assoc, List.cons_append]
      · exact hafter after label [] s₁ rfl hrun
  · rintro (hlabel | ⟨⟨before, first, after, s₂, rfl, hbefore, hfirst, hafter⟩, hnot⟩)
    · refine ⟨labels, label, [], s₁, rfl, hrun, hlabel, fun between other rest s₂ heq => ?_⟩
      simp at heq
    · refine ⟨before, first, after ++ [label], s₂, by simp, hbefore, hfirst, ?_⟩
      intro between other rest s₃ heq hbetween
      rcases List.eq_nil_or_concat' rest with rfl | ⟨rest, last, rfl⟩
      · obtain ⟨rfl, hlast⟩ := List.append_inj' heq rfl
        obtain rfl : label = other := List.head_eq_of_cons_eq hlast
        rw [hrun] at hbetween
        exact Option.some.inj hbetween ▸ hnot
      · rw [← List.cons_append, ← List.append_assoc] at heq
        obtain ⟨heq, -⟩ := List.append_inj' heq rfl
        exact hafter between other rest s₃ heq hbetween

namespace Runs

/-- What every step preserves holds after every run. -/
theorem invariant (h : Runs step run) {I : σ → Prop}
    (hstep : ∀ {s s'}, I s → ∀ {label}, step s label = some s' → I s') {s s' : σ}
    {labels : List Label} (hs : I s) (hrun : run s labels = some s') : I s' := by
  induction labels generalizing s with
  | nil =>
      rw [h.nil] at hrun
      exact Option.some.inj hrun ▸ hs
  | cons label labels ih =>
      rw [h.cons] at hrun
      obtain ⟨s₁, hfirst, hrest⟩ := Option.bind_eq_some_iff.mp hrun
      exact ih (hstep hs hfirst) hrest

theorem append (h : Runs step run) (s : σ) (before after : List Label) :
    run s (before ++ after) = (run s before).bind fun s' => run s' after := by
  induction before generalizing s with
  | nil =>
      rw [h.nil]
      rfl
  | cons label before ih =>
      rw [List.cons_append, h.cons, h.cons, Option.bind_assoc]
      exact congrArg _ (funext ih)

theorem concat (h : Runs step run) {s s' : σ} {labels : List Label} {label : Label} :
    run s (labels ++ [label]) = some s' ↔
      ∃ s₁, run s labels = some s₁ ∧ step s₁ label = some s' := by
  have hlast : ∀ s₁, run s₁ [label] = step s₁ label := by
    intro s₁
    rw [h.cons, funext h.nil, Option.bind_fun_some]
  rw [h.append, funext hlast, Option.bind_eq_some_iff]

theorem invariant_within (h : Runs step run) {I P : σ → Prop}
    (hstep : ∀ {s s'}, I s → P s' → ∀ {label}, step s label = some s' → I s') {s s' : σ}
    {labels : List Label} (hs : I s) (hrun : run s labels = some s')
    (hwithin : ∀ before after s₁, labels = before ++ after → run s before = some s₁ → P s₁) :
    I s' := by
  induction labels using List.reverseRecOn generalizing s' with
  | nil =>
      rw [h.nil] at hrun
      exact Option.some.inj hrun ▸ hs
  | append_singleton labels label ih =>
      obtain ⟨s₁, hlabels, hlabel⟩ := h.concat.mp hrun
      have hs₁ : I s₁ := by
        apply ih hlabels
        intro before after s₂ heq hbefore
        apply hwithin before (after ++ [label]) s₂ ?_ hbefore
        rw [heq, List.append_assoc]
      exact hstep hs₁ (hwithin _ [] _ (List.append_nil _).symm hrun) hlabel

/-- What a step with `P` brings about and one with `Q` ends, and no other step changes. -/
theorem since (h : Runs step run) {I R : σ → Prop} {P Q : σ → Label → Prop}
    (hinvariant : ∀ {s s'}, I s → ∀ {label}, step s label = some s' → I s')
    (hstep : ∀ {s s'}, I s → ∀ {label}, step s label = some s' →
      (R s' ↔ P s label ∨ R s ∧ ¬ Q s label)) {s s' : σ} {labels : List Label} (hI : I s)
    (hR : ¬ R s) (hrun : run s labels = some s') : R s' ↔ Since run P Q s labels := by
  induction labels using List.reverseRecOn generalizing s' with
  | nil =>
      rw [h.nil] at hrun
      refine iff_of_false (Option.some.inj hrun ▸ hR) ?_
      rintro ⟨before, label, after, s₁, heq, -⟩
      simp at heq
  | append_singleton labels label ih =>
      obtain ⟨s₁, hlabels, hlabel⟩ := h.concat.mp hrun
      rw [hstep (h.invariant hinvariant hI hlabels) hlabel, since_concat hlabels, ih hlabels]

theorem mono (h : Runs step run) (h' : Runs step' run')
    (hstep : ∀ {s label s'}, step s label = some s' → step' s label = some s') {s s' : σ}
    {labels : List Label} (hrun : run s labels = some s') : run' s labels = some s' := by
  induction labels generalizing s with
  | nil =>
      rw [h.nil] at hrun
      rw [h'.nil, hrun]
  | cons label labels ih =>
      rw [h.cons] at hrun
      rw [h'.cons]
      obtain ⟨s₁, hfirst, hrest⟩ := Option.bind_eq_some_iff.mp hrun
      exact Option.bind_eq_some_iff.mpr ⟨s₁, hstep hfirst, ih hrest⟩

end Runs

end OracleNIO.LabelledRuns
