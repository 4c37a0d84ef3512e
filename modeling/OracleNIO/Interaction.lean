import Mathlib.Logic.Basic
import Mathlib.Data.List.Basic

/-!
Sequential programs that act on their surroundings only by performing
operations.  A program is a finite tree of operations; an unbounded loop is a
body that is started again from the state it returned.  Whatever is asserted
about a program is asserted for every way its operations can be answered.
-/

namespace OracleNIO.Interaction

/-- A program over the operations `Op`, where `op` is answered by a `Reply op`.
It returns a value, throws an error, traps, or performs an operation and goes
on with the reply. -/
inductive Prog (Op : Type) (Reply : Op → Type) (ε α : Type) where
  | pure (value : α)
  | throw (error : ε)
  | trap
  | call (op : Op) (next : Reply op → Prog Op Reply ε α)

/-- An operation that was performed, and the reply to it. -/
structure Event (Op : Type) (Reply : Op → Type) where
  op : Op
  reply : Reply op

/-- How a program ends. -/
inductive Outcome (ε α : Type) where
  | value (a : α)
  | error (e : ε)
  | trap
deriving DecidableEq, Repr

/-- A postcondition for values and one for errors, of an outcome at a history.
Nothing is claimed of a trap, which ends the process. -/
def Outcome.Holds {ε α τ : Type} (Q : α → τ → Prop) (E : ε → τ → Prop) :
    Outcome ε α → τ → Prop
  | .value a, t => Q a t
  | .error e, t => E e t
  | .trap, _ => True

variable {Op : Type} {Reply : Op → Type} {ε α β σ ω ι : Type}

def Outcome.bind : Outcome ε α → (α → Outcome ε β) → Outcome ε β
  | .value a, f => f a
  | .error e, _ => .error e
  | .trap, _ => .trap

instance : Monad (Outcome ε) where
  pure := .value
  bind := .bind

theorem Outcome.bind_eq_value {o : Outcome ε α} {f : α → Outcome ε β} {b : β} :
    o >>= f = .value b ↔ ∃ a, o = .value a ∧ f a = .value b := by
  constructor
  · intro h
    cases o with
    | value a => exact ⟨a, rfl, h⟩
    | error e => cases h
    | trap => cases h
  · rintro ⟨a, rfl, h⟩
    exact h

namespace Prog

def bind : Prog Op Reply ε α → (α → Prog Op Reply ε β) → Prog Op Reply ε β
  | .pure a, f => f a
  | .throw e, _ => .throw e
  | .trap, _ => .trap
  | .call op next, f => .call op fun r => (next r).bind f

instance : Monad (Prog Op Reply ε) where
  pure := .pure
  bind := .bind

/-- Run the handler on a thrown error; a trap cannot be caught. -/
def tryCatch : Prog Op Reply ε α → (ε → Prog Op Reply ε α) → Prog Op Reply ε α
  | .pure a, _ => .pure a
  | .throw e, handler => handler e
  | .trap, _ => .trap
  | .call op next, handler => .call op fun r => (next r).tryCatch handler

def perform (op : Op) : Prog Op Reply ε (Reply op) :=
  .call op .pure

/-- The program that performs nothing and ends in that way. -/
def ofOutcome : Outcome ε α → Prog Op Reply ε α
  | .value a => .pure a
  | .error e => .throw e
  | .trap => .trap

/-- The programs of a list, one after the other. -/
def collect (f : ι → Prog Op Reply ε α) : List ι → Prog Op Reply ε (List α)
  | [] => .pure []
  | x :: xs => do
      let a ← f x
      let as ← collect f xs
      return a :: as

@[simp] theorem trap_bind (f : α → Prog Op Reply ε β) :
    (Prog.trap >>= f) = .trap := rfl

@[simp] theorem call_bind (op : Op) (next : Reply op → Prog Op Reply ε α)
    (f : α → Prog Op Reply ε β) :
    (Prog.call op next >>= f) = .call op fun r => next r >>= f := rfl

/-- `p.Runs tr out`: the program can end with `out` after the operations and
replies listed in `tr`. -/
def Runs : Prog Op Reply ε α → List (Event Op Reply) → Outcome ε α → Prop
  | .pure a, tr, out => tr = [] ∧ out = .value a
  | .throw e, tr, out => tr = [] ∧ out = .error e
  | .trap, tr, out => tr = [] ∧ out = .trap
  | .call op next, tr, out =>
      ∃ r rest, tr = ⟨op, r⟩ :: rest ∧ (next r).Runs rest out

theorem runs_bind {p : Prog Op Reply ε α} {f : α → Prog Op Reply ε β}
    {tr : List (Event Op Reply)} {out : Outcome ε β} (h : (p >>= f).Runs tr out) :
    (∃ a tr₁ tr₂, tr = tr₁ ++ tr₂ ∧ p.Runs tr₁ (.value a) ∧ (f a).Runs tr₂ out) ∨
      (∃ e, out = .error e ∧ p.Runs tr (.error e)) ∨ out = .trap ∧ p.Runs tr .trap := by
  induction p generalizing tr with
  | pure a => exact .inl ⟨a, [], tr, rfl, ⟨rfl, rfl⟩, h⟩
  | throw e => exact .inr (.inl ⟨e, h.2, h.1, rfl⟩)
  | trap => exact .inr (.inr ⟨h.2, h.1, rfl⟩)
  | call op next ih =>
      rcases h with ⟨r, rest, rfl, hrest⟩
      obtain ⟨a, tr₁, tr₂, rfl, hp, hf⟩ | ⟨e, he, hp⟩ | ⟨htrap, hp⟩ := ih r hrest
      · exact .inl ⟨a, ⟨op, r⟩ :: tr₁, tr₂, rfl, ⟨r, tr₁, rfl, hp⟩, hf⟩
      · exact .inr (.inl ⟨e, he, r, rest, rfl, hp⟩)
      · exact .inr (.inr ⟨htrap, r, rest, rfl, hp⟩)

theorem Runs.bind {p : Prog Op Reply ε α} {f : α → Prog Op Reply ε β}
    {tr₁ tr₂ : List (Event Op Reply)} {a : α} {out : Outcome ε β}
    (hp : p.Runs tr₁ (.value a)) (hf : (f a).Runs tr₂ out) :
    (p >>= f).Runs (tr₁ ++ tr₂) out := by
  induction p generalizing tr₁ with
  | pure b =>
      obtain ⟨rfl, ⟨⟩⟩ := hp
      exact hf
  | throw e => cases hp.2
  | trap => cases hp.2
  | call op next ih =>
      obtain ⟨r, rest, rfl, hrest⟩ := hp
      exact ⟨r, rest ++ tr₂, rfl, ih r hrest⟩

theorem Runs.bind_pure {p : Prog Op Reply ε α} {tr : List (Event Op Reply)} {a : α}
    (hp : p.Runs tr (.value a)) (f : α → β) :
    (p >>= fun a => Prog.pure (f a)).Runs tr (.value (f a)) := by
  have hrun : (p >>= fun a => Prog.pure (f a)).Runs (tr ++ []) (.value (f a)) :=
    hp.bind ⟨rfl, rfl⟩
  rwa [List.append_nil] at hrun

theorem Runs.ofOutcome_bind {o : Outcome ε α} {f : α → Prog Op Reply ε β} {a : α}
    {tr : List (Event Op Reply)} {out : Outcome ε β} (ho : o = .value a)
    (hf : (f a).Runs tr out) : (ofOutcome o >>= f).Runs tr out := by
  subst ho
  exact hf

theorem Runs.tryCatch {p : Prog Op Reply ε α} (handler : ε → Prog Op Reply ε α)
    {tr : List (Event Op Reply)} {a : α} (hp : p.Runs tr (.value a)) :
    (p.tryCatch handler).Runs tr (.value a) := by
  induction p generalizing tr with
  | pure b => exact hp
  | throw e => cases hp.2
  | trap => cases hp.2
  | call op next ih =>
      obtain ⟨r, rest, rfl, hrest⟩ := hp
      exact ⟨r, rest, rfl, ih r hrest⟩

theorem runs_ofOutcome_bind {o : Outcome ε α} {f : α → Prog Op Reply ε β}
    {tr : List (Event Op Reply)} {out : Outcome ε β}
    (h : (ofOutcome o >>= f).Runs tr out) :
    (∃ a, o = .value a ∧ (f a).Runs tr out) ∨
      tr = [] ∧ (∀ b, out ≠ .value b) ∧ ∀ e, out = .error e → o = .error e := by
  cases o with
  | value a => exact .inl ⟨a, rfl, h⟩
  | error e =>
      rcases h with ⟨rfl, rfl⟩
      exact .inr ⟨rfl, by simp, by simp⟩
  | trap =>
      rcases h with ⟨rfl, rfl⟩
      exact .inr ⟨rfl, by simp, by simp⟩

theorem runs_tryCatch {p : Prog Op Reply ε α} {handler : ε → Prog Op Reply ε α}
    {tr : List (Event Op Reply)} {out : Outcome ε α}
    (h : (p.tryCatch handler).Runs tr out) :
    (p.Runs tr out ∧ ∀ e, out ≠ .error e) ∨
      ∃ e tr₁ tr₂, tr = tr₁ ++ tr₂ ∧ p.Runs tr₁ (.error e) ∧ (handler e).Runs tr₂ out := by
  induction p generalizing tr with
  | pure a =>
      rcases h with ⟨rfl, rfl⟩
      exact .inl ⟨⟨rfl, rfl⟩, by simp⟩
  | throw e => exact .inr ⟨e, [], tr, rfl, ⟨rfl, rfl⟩, h⟩
  | trap =>
      rcases h with ⟨rfl, rfl⟩
      exact .inl ⟨⟨rfl, rfl⟩, by simp⟩
  | call op next ih =>
      rcases h with ⟨r, rest, rfl, hrest⟩
      obtain ⟨hp, hout⟩ | ⟨e, tr₁, tr₂, rfl, hp, hhandler⟩ := ih r hrest
      · exact .inl ⟨⟨r, rest, rfl, hp⟩, hout⟩
      · exact .inr ⟨e, ⟨op, r⟩ :: tr₁, tr₂, rfl, ⟨r, tr₁, rfl, hp⟩, hhandler⟩

/-- The program can have performed the operations so far. -/
def Performs : Prog Op Reply ε α → List (Event Op Reply) → Prop
  | _, [] => True
  | .call op next, e :: tr => ∃ r, e = ⟨op, r⟩ ∧ (next r).Performs tr
  | _, _ :: _ => False

theorem performs_ofOutcome_bind {o : Outcome ε α} {f : α → Prog Op Reply ε β}
    {e : Event Op Reply} {tr : List (Event Op Reply)} :
    (ofOutcome o >>= f).Performs (e :: tr) ↔ ∃ a, o = .value a ∧ (f a).Performs (e :: tr) := by
  cases o with
  | value a =>
      constructor
      · intro h
        exact ⟨a, rfl, h⟩
      · rintro ⟨b, hb, h⟩
        cases hb
        exact h
  | error _ =>
      constructor
      · intro h
        exact h.elim
      · rintro ⟨b, hb, _⟩
        cases hb
  | trap =>
      constructor
      · intro h
        exact h.elim
      · rintro ⟨b, hb, _⟩
        cases hb

theorem Performs.exists_runs {p : Prog Op Reply ε α} {tr : List (Event Op Reply)}
    (hreply : ∀ op, Nonempty (Reply op)) (h : p.Performs tr) :
    ∃ rest out, p.Runs (tr ++ rest) out := by
  induction p generalizing tr with
  | pure a =>
      cases tr with
      | nil => exact ⟨[], .value a, rfl, rfl⟩
      | cons e tr => exact h.elim
  | throw e =>
      cases tr with
      | nil => exact ⟨[], .error e, rfl, rfl⟩
      | cons e tr => exact h.elim
  | trap =>
      cases tr with
      | nil => exact ⟨[], .trap, rfl, rfl⟩
      | cons e tr => exact h.elim
  | call op next ih =>
      cases tr with
      | nil =>
          obtain ⟨r⟩ := hreply op
          have hnil : (next r).Performs [] := by simp [Performs]
          obtain ⟨rest, out, hrun⟩ := ih r hnil
          exact ⟨⟨op, r⟩ :: rest, out, r, rest, rfl, hrun⟩
      | cons e tr =>
          obtain ⟨r, rfl, h⟩ := h
          obtain ⟨rest, out, hrun⟩ := ih r h
          exact ⟨rest, out, r, tr ++ rest, rfl, hrun⟩

/-- What is left of the program after the operation, if it is the next one. -/
def advance [DecidableEq Op] : Prog Op Reply ε α → Event Op Reply → Option (Prog Op Reply ε α)
  | .call op next, e => if h : e.op = op then some (next (h ▸ e.reply)) else none
  | _, _ => none

theorem advance_eq_some [DecidableEq Op] {p p' : Prog Op Reply ε α} {e : Event Op Reply}
    (h : p.advance e = some p') : ∃ next, p = .call e.op next ∧ p' = next e.reply := by
  cases p with
  | call op next =>
      simp only [advance] at h
      split at h
      case isTrue hop =>
          subst hop
          cases h
          exact ⟨next, rfl, rfl⟩
      case isFalse => cases h
  | _ => cases h

theorem runs_of_advance [DecidableEq Op] {p p' : Prog Op Reply ε α} {e : Event Op Reply}
    (h : p.advance e = some p') {tr : List (Event Op Reply)} {out : Outcome ε α}
    (hrun : p'.Runs tr out) : p.Runs (e :: tr) out := by
  obtain ⟨next, rfl, rfl⟩ := advance_eq_some h
  exact ⟨e.reply, tr, rfl, hrun⟩

/-- The program is run, with replies from a state that each operation may change. -/
def exec (handler : (op : Op) → ω → Reply op × ω) :
    Prog Op Reply ε α → ω → Outcome ε α × ω
  | .pure a, w => (.value a, w)
  | .throw e, w => (.error e, w)
  | .trap, w => (.trap, w)
  | .call op next, w => (next (handler op w).1).exec handler (handler op w).2

/-- The second program of a sequence is run, where the first one returned. -/
def execNext (handler : (op : Op) → ω → Reply op × ω)
    (f : α → Prog Op Reply ε β) : Outcome ε α × ω → Outcome ε β × ω
  | (.value a, w) => (f a).exec handler w
  | (.error e, w) => (.error e, w)
  | (.trap, w) => (.trap, w)

theorem exec_bind (handler : (op : Op) → ω → Reply op × ω)
    (p : Prog Op Reply ε α) (f : α → Prog Op Reply ε β) (w : ω) :
    (p >>= f).exec handler w = execNext handler f (p.exec handler w) := by
  induction p generalizing w with
  | pure a => rfl
  | throw e => rfl
  | trap => rfl
  | call op next ih => exact ih (handler op w).1 (handler op w).2

theorem exec_bind_eq_value {handler : (op : Op) → ω → Reply op × ω}
    {p : Prog Op Reply ε α} {f : α → Prog Op Reply ε β} {w w' : ω} {b : β} :
    (p >>= f).exec handler w = (.value b, w') ↔
      ∃ a w₁, p.exec handler w = (.value a, w₁) ∧ (f a).exec handler w₁ = (.value b, w') := by
  rw [exec_bind]
  constructor
  · intro h
    rcases hp : p.exec handler w with ⟨out, w₁⟩
    rw [hp] at h
    cases out with
    | value a => exact ⟨a, w₁, rfl, h⟩
    | error e => cases h
    | trap => cases h
  · rintro ⟨a, w₁, hp, hf⟩
    rw [hp]
    exact hf

end Prog

/-- A contract says which operations a program may perform after which history. -/
abbrev Contract (Op : Type) (Reply : Op → Type) : Type :=
  List (Event Op Reply) → Op → Prop

namespace Contract

/-- Everything is allowed. -/
def free : Contract Op Reply :=
  fun _ _ => True

/-- Only these operations are allowed, at any time. -/
def only (allows : Op → Prop) : Contract Op Reply :=
  fun _ op => allows op

end Contract

namespace Prog

/-- Weakest precondition over histories: from the history `tr`, every operation
performed is allowed, a returned value satisfies `Q` and a thrown error `E`. -/
def wp (c : Contract Op Reply) (Q : α → List (Event Op Reply) → Prop)
    (E : ε → List (Event Op Reply) → Prop) :
    Prog Op Reply ε α → List (Event Op Reply) → Prop
  | .pure a, tr => Q a tr
  | .throw e, tr => E e tr
  | .trap, _ => True
  | .call op next, tr => c tr op ∧ ∀ r, (next r).wp c Q E (tr ++ [⟨op, r⟩])

section Wp

variable {c : Contract Op Reply} {Q Q' : α → List (Event Op Reply) → Prop}
  {E E' : ε → List (Event Op Reply) → Prop} {R : β → List (Event Op Reply) → Prop}
  {tr : List (Event Op Reply)}

theorem wp_bind (p : Prog Op Reply ε α) (f : α → Prog Op Reply ε β)
    (tr : List (Event Op Reply)) :
    (p >>= f).wp c R E tr ↔ p.wp c (fun a tr' => (f a).wp c R E tr') E tr := by
  induction p generalizing tr with
  | pure a => rfl
  | throw e => rfl
  | trap => rfl
  | call op next ih => simp only [call_bind, wp, ih]

theorem wp_tryCatch (p : Prog Op Reply ε α) (handler : ε → Prog Op Reply ε α)
    (tr : List (Event Op Reply)) :
    (p.tryCatch handler).wp c Q E tr ↔
      p.wp c Q (fun e tr' => (handler e).wp c Q E tr') tr := by
  induction p generalizing tr with
  | pure a => rfl
  | throw e => rfl
  | trap => rfl
  | call op next ih => simp only [tryCatch, wp, ih]

theorem wp_mono (hQ : ∀ a tr, Q a tr → Q' a tr) (hE : ∀ e tr, E e tr → E' e tr)
    {p : Prog Op Reply ε α} (hp : p.wp c Q E tr) : p.wp c Q' E' tr := by
  induction p generalizing tr with
  | pure a => exact hQ a tr hp
  | throw e => exact hE e tr hp
  | trap => trivial
  | call op next ih => exact ⟨hp.1, fun r => ih r (hp.2 r)⟩

/-- Rule of sequence: it is enough to follow the first program to a midpoint. -/
theorem wp_seq {M : α → List (Event Op Reply) → Prop} {p : Prog Op Reply ε α}
    {f : α → Prog Op Reply ε β} (hp : p.wp c M E tr)
    (hf : ∀ a tr', M a tr' → (f a).wp c R E tr') : (p >>= f).wp c R E tr :=
  (wp_bind p f tr).mpr (wp_mono hf (fun _ _ h => h) hp)

theorem wp_ofOutcome_bind {o : Outcome ε α} {f : α → Prog Op Reply ε β}
    (hvalue : ∀ a, o = .value a → (f a).wp c R E tr) (herror : ∀ e, o = .error e → E e tr) :
    (ofOutcome o >>= f).wp c R E tr := by
  cases o with
  | value a => exact hvalue a rfl
  | error e => exact herror e rfl
  | trap => trivial

theorem wp_collect {I : List (Event Op Reply) → Prop}
    {f : ι → Prog Op Reply ε α} {xs : List ι}
    (hf : ∀ x ∈ xs, ∀ tr, I tr → (f x).wp c (fun _ => I) E tr) (htr : I tr) :
    (collect f xs).wp c (fun _ => I) E tr := by
  induction xs generalizing tr with
  | nil => exact htr
  | cons x xs ih =>
      have htail : ∀ y ∈ xs, ∀ tr, I tr → (f y).wp c (fun _ => I) E tr :=
        fun y hy => hf y (List.mem_cons_of_mem x hy)
      refine wp_seq (hf x (by simp) tr htr) fun a tr₁ h₁ => ?_
      exact wp_seq (ih htail h₁) fun as tr₂ h₂ => h₂

theorem wp_runs {p : Prog Op Reply ε α} (hp : p.wp c Q E tr)
    {rest : List (Event Op Reply)} {out : Outcome ε α} (hrun : p.Runs rest out) :
    out.Holds Q E (tr ++ rest) := by
  induction p generalizing tr rest with
  | pure a =>
      rcases hrun with ⟨rfl, rfl⟩
      simpa [wp, Outcome.Holds] using hp
  | throw e =>
      rcases hrun with ⟨rfl, rfl⟩
      simpa [wp, Outcome.Holds] using hp
  | trap =>
      rcases hrun with ⟨rfl, rfl⟩
      trivial
  | call op next ih =>
      rcases hrun with ⟨r, rest, rfl, hrun⟩
      simpa using ih r (hp.2 r) hrun

theorem wp_advance [DecidableEq Op] {p p' : Prog Op Reply ε α} (hp : p.wp c Q E tr)
    {e : Event Op Reply} (h : p.advance e = some p') :
    c tr e.op ∧ p'.wp c Q E (tr ++ [e]) := by
  obtain ⟨next, rfl, rfl⟩ := advance_eq_some h
  exact ⟨hp.1, hp.2 e.reply⟩

end Wp

/-- After any history the operations are allowed and every value returned satisfies
`Q`. -/
def Respects (c : Contract Op Reply) (Q : α → Prop) (p : Prog Op Reply ε α) : Prop :=
  ∀ tr, p.wp c (fun a _ => Q a) (fun _ _ => True) tr

section Respects

variable {c : Contract Op Reply} {allows : Op → Prop} {Q : α → Prop} {R : β → Prop}

theorem respects_pure {a : α} (ha : Q a) : (Prog.pure a : Prog Op Reply ε α).Respects c Q :=
  fun _ => ha

theorem respects_throw {e : ε} : (Prog.throw e : Prog Op Reply ε α).Respects c Q :=
  fun _ => trivial

theorem respects_bind {p : Prog Op Reply ε α} {f : α → Prog Op Reply ε β}
    (hp : p.Respects c Q) (hf : ∀ a, Q a → (f a).Respects c R) : (p >>= f).Respects c R :=
  fun tr => wp_seq (hp tr) fun a tr' ha => hf a ha tr'

theorem respects_perform_bind {op : Op} {f : Reply op → Prog Op Reply ε α}
    (hop : ∀ tr, c tr op) (hf : ∀ r, (f r).Respects c Q) : (perform op >>= f).Respects c Q :=
  fun tr => ⟨hop tr, fun r => hf r _⟩

theorem respects_ofOutcome {o : Outcome ε α} (h : ∀ a, o = .value a → Q a) :
    (ofOutcome o : Prog Op Reply ε α).Respects c Q := by
  cases o with
  | value a => exact respects_pure (h a rfl)
  | error e => exact respects_throw
  | trap => exact fun _ => trivial

theorem respects_ofOutcome_bind {o : Outcome ε α} {f : α → Prog Op Reply ε β}
    (hf : ∀ a, o = .value a → (f a).Respects c R) : (ofOutcome o >>= f).Respects c R :=
  respects_bind (respects_ofOutcome fun _ h => h) hf

theorem respects_tryCatch {p : Prog Op Reply ε α} {handler : ε → Prog Op Reply ε α}
    (hp : p.Respects c Q) (hhandler : ∀ e, (handler e).Respects c Q) :
    (p.tryCatch handler).Respects c Q := by
  intro tr
  rw [wp_tryCatch]
  exact wp_mono (fun _ _ h => h) (fun e tr' _ => hhandler e tr') (hp tr)

theorem respects_collect {f : ι → Prog Op Reply ε α} {xs : List ι}
    (hf : ∀ x ∈ xs, (f x).Respects c fun _ => True) :
    (collect f xs).Respects c fun _ => True := by
  intro tr
  apply wp_collect (I := fun _ => True) ?_ trivial
  intro x hx tr _
  exact hf x hx tr

theorem wp_allows {p : Prog Op Reply ε α} {E : ε → List (Event Op Reply) → Prop}
    {tr : List (Event Op Reply)} (hp : p.wp (.only allows) (fun a _ => Q a) E tr)
    {rest : List (Event Op Reply)} {out : Outcome ε α} (hrun : p.Runs rest out) :
    ∀ e ∈ rest, allows e.op := by
  induction p generalizing tr rest with
  | call op next ih =>
      rcases hrun with ⟨r, rest, rfl, hrest⟩
      exact List.forall_mem_cons.mpr ⟨hp.1, ih r (hp.2 r) hrest⟩
  | _ =>
      rcases hrun with ⟨rfl, _⟩
      simp

theorem respects_runs {p : Prog Op Reply ε α} (hp : p.Respects (.only allows) Q)
    {tr : List (Event Op Reply)} {out : Outcome ε α} (hrun : p.Runs tr out) :
    (∀ e ∈ tr, allows e.op) ∧ ∀ a, out = .value a → Q a := by
  refine ⟨wp_allows (hp []) hrun, ?_⟩
  rintro a rfl
  exact wp_runs (hp []) hrun

/-- Under a contract that allows all of its operations, a program is known by its runs. -/
theorem wp_of_respects {p : Prog Op Reply ε α} {tr : List (Event Op Reply)}
    (hp : p.Respects (.only allows) Q)
    (hc : ∀ rest, (∀ e ∈ rest, allows e.op) → ∀ op, allows op → c (tr ++ rest) op) :
    p.wp c
      (fun a tr' => ∃ rest, tr' = tr ++ rest ∧ p.Runs rest (.value a))
      (fun e tr' => ∃ rest, tr' = tr ++ rest ∧ p.Runs rest (.error e)) tr := by
  replace hp := hp []
  generalize ([] : List (Event Op Reply)) = before at hp
  induction p generalizing tr before with
  | pure a => exact ⟨[], by simp, rfl, rfl⟩
  | throw e => exact ⟨[], by simp, rfl, rfl⟩
  | trap => trivial
  | call op next ih =>
      have hop : c tr op := by
        have := hc [] (by simp) op hp.1
        rwa [List.append_nil] at this
      refine ⟨hop, fun r => ?_⟩
      apply wp_mono ?_ ?_ (ih r ?_ _ (hp.2 r))
      · rintro a tr' ⟨rest, rfl, hrun⟩
        exact ⟨⟨op, r⟩ :: rest, by simp, r, rest, rfl, hrun⟩
      · rintro e tr' ⟨rest, rfl, hrun⟩
        exact ⟨⟨op, r⟩ :: rest, by simp, r, rest, rfl, hrun⟩
      · intro rest hrest op' hop'
        rw [List.append_assoc]
        exact hc (⟨op, r⟩ :: rest) (List.forall_mem_cons.mpr ⟨hp.1, hrest⟩) op' hop'

end Respects

end Prog

section Loop

variable {body : σ → Prog Op Reply ε (σ ⊕ α)}

/-- The complete runs of a loop, whose body returns either the state in which it is to be
started again or the result of the loop. -/
inductive LoopRuns (body : σ → Prog Op Reply ε (σ ⊕ α)) :
    σ → List (Event Op Reply) → Outcome ε α → Prop
  | done {x tr a} : (body x).Runs tr (.value (.inr a)) → LoopRuns body x tr (.value a)
  | error {x tr e} : (body x).Runs tr (.error e) → LoopRuns body x tr (.error e)
  | trap {x tr} : (body x).Runs tr .trap → LoopRuns body x tr .trap
  | again {x y tr rest out} : (body x).Runs tr (.value (.inl y)) →
      LoopRuns body y rest out → LoopRuns body x (tr ++ rest) out

/-- The loop can have performed the operations so far; it need not end. -/
inductive LoopPerforms (body : σ → Prog Op Reply ε (σ ⊕ α)) :
    σ → List (Event Op Reply) → Prop
  | here {x tr} : (body x).Performs tr → LoopPerforms body x tr
  | again {x y tr rest} : (body x).Runs tr (.value (.inl y)) → LoopPerforms body y rest →
      LoopPerforms body x (tr ++ rest)

theorem LoopPerforms.exists_loopRuns {x : σ} {tr : List (Event Op Reply)}
    (hreply : ∀ op, Nonempty (Reply op)) (hends : ∀ y, ∃ rest out, LoopRuns body y rest out)
    (h : LoopPerforms body x tr) : ∃ rest out, LoopRuns body x (tr ++ rest) out := by
  induction h with
  | @here x tr hperforms =>
      obtain ⟨rest, out, hrun⟩ := hperforms.exists_runs hreply
      cases out with
      | value next =>
          cases next with
          | inl y =>
              obtain ⟨rest', out, hloop⟩ := hends y
              refine ⟨rest ++ rest', out, ?_⟩
              rw [← List.append_assoc]
              exact .again hrun hloop
          | inr a => exact ⟨rest, .value a, .done hrun⟩
      | error e => exact ⟨rest, .error e, .error hrun⟩
      | trap => exact ⟨rest, .trap, .trap hrun⟩
  | again hfirst _ ih =>
      obtain ⟨rest', out, hloop⟩ := ih
      refine ⟨rest', out, ?_⟩
      rw [List.append_assoc]
      exact .again hfirst hloop

/-- The invariant where the loop goes on, the postcondition where it returns. -/
def loopPost (I : σ → List (Event Op Reply) → Prop)
    (Q : α → List (Event Op Reply) → Prop) :
    σ ⊕ α → List (Event Op Reply) → Prop
  | .inl x => I x
  | .inr a => Q a

variable {c : Contract Op Reply} {I : σ → List (Event Op Reply) → Prop}
  {Q : α → List (Event Op Reply) → Prop} {E : ε → List (Event Op Reply) → Prop}

/-- Loop rule: an invariant kept by the body holds whenever it starts, and the
loop ends in the body's postcondition. -/
theorem wp_loopRuns
    (hbody : ∀ x tr, I x tr → (body x).wp c (loopPost I Q) E tr)
    {x : σ} {tr rest : List (Event Op Reply)} {out : Outcome ε α}
    (hrun : LoopRuns body x rest out) (hx : I x tr) : out.Holds Q E (tr ++ rest) := by
  induction hrun generalizing tr with
  | done hrun => exact Prog.wp_runs (hbody _ tr hx) hrun
  | error hrun => exact Prog.wp_runs (hbody _ tr hx) hrun
  | trap hrun => trivial
  | again hfirst _ ih =>
      have hy := Prog.wp_runs (hbody _ tr hx) hfirst
      simpa using ih hy

end Loop

end OracleNIO.Interaction
