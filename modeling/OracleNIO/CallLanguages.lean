import OracleNIO.Interaction

/-!
Languages of the calls that programs make.  An observer sees some operations and tells
which of the answers to them are failures; a program speaks a language if a run that
returns leaves a word of it, and every other run a word that has been cut off.
-/

namespace OracleNIO.CallLanguages

open Interaction Prog

variable {Op : Type} {Reply : Op → Type} {ε α β ι : Type}

/-- Which operations are observed, and which of their replies are failures. -/
structure Observer (Op : Type) (Reply : Op → Type) where
  sees : Op → Bool
  Fails : Event Op Reply → Prop

variable {o : Observer Op Reply}

def Observer.calls (o : Observer Op Reply) (tr : List (Event Op Reply)) :
    List (Event Op Reply) :=
  tr.filter fun e => o.sees e.op

/-- The calls are those of the word up to some point, perhaps with a failing one last. -/
inductive CutOff (o : Observer Op Reply) (word : List (Event Op Reply)) :
    List (Event Op Reply) → Prop
  | stopped {calls : List (Event Op Reply)} (h : calls <+: word) : CutOff o word calls
  | failed {done : List (Event Op Reply)} {e e' : Event Op Reply} (h : done ++ [e'] <+: word)
      (hop : e.op = e'.op) (hfails : o.Fails e) : CutOff o word (done ++ [e])

section CutOff

variable {word calls : List (Event Op Reply)}

theorem CutOff.append_left (h : CutOff o word calls) (before : List (Event Op Reply)) :
    CutOff o (before ++ word) (before ++ calls) := by
  cases h with
  | stopped h => exact .stopped ((List.prefix_append_right_inj before).mpr h)
  | failed h hop hfails =>
      rw [← List.append_assoc]
      refine .failed ?_ hop hfails
      rw [List.append_assoc]
      exact (List.prefix_append_right_inj before).mpr h

theorem CutOff.append_right (h : CutOff o word calls) (after : List (Event Op Reply)) :
    CutOff o (word ++ after) calls := by
  cases h with
  | stopped h => exact .stopped (h.trans (List.prefix_append word after))
  | failed h hop hfails => exact .failed (h.trans (List.prefix_append word after)) hop hfails

theorem CutOff.of_prefix {earlier : List (Event Op Reply)} (h : CutOff o word calls)
    (hearlier : earlier <+: calls) : CutOff o word earlier := by
  cases h with
  | stopped h => exact .stopped (hearlier.trans h)
  | @failed done e e' h hop hfails =>
      rcases List.prefix_concat_iff.mp hearlier with rfl | hearlier
      · exact .failed h hop hfails
      · exact .stopped (hearlier.trans ((List.prefix_append done [e']).trans h))

theorem cutOff_self (o : Observer Op Reply) (word : List (Event Op Reply)) :
    CutOff o word word :=
  .stopped (List.prefix_refl word)

end CutOff

/-- Made one after the other from the history `before`, the calls keep to the contract. -/
def Obeys (c : Contract Op Reply) :
    List (Event Op Reply) → List (Event Op Reply) → Prop
  | _, [] => True
  | before, e :: calls => c before e.op ∧ Obeys c (before ++ [e]) calls

section Obeys

variable {c : Contract Op Reply} {before word calls : List (Event Op Reply)}

theorem obeys_append : Obeys c before (word ++ calls) ↔
    Obeys c before word ∧ Obeys c (before ++ word) calls := by
  induction word generalizing before with
  | nil => simp [Obeys]
  | cons e word ih => simp [Obeys, ih, and_assoc]

theorem Obeys.of_prefix (h : Obeys c before word) (hearlier : calls <+: word) :
    Obeys c before calls := by
  obtain ⟨after, rfl⟩ := hearlier
  exact (obeys_append.mp h).1

theorem CutOff.obeys (hcut : CutOff o word calls) (h : Obeys c before word) :
    Obeys c before calls := by
  cases hcut with
  | stopped hearlier => exact h.of_prefix hearlier
  | @failed done e e' hearlier hop _ =>
      obtain ⟨hdone, hlast⟩ := obeys_append.mp (h.of_prefix hearlier)
      refine obeys_append.mpr ⟨hdone, ?_, trivial⟩
      rw [hop]
      exact hlast.1

theorem Obeys.at {after : List (Event Op Reply)} {e : Event Op Reply}
    (h : Obeys c before (calls ++ e :: after)) : c (before ++ calls) e.op :=
  (obeys_append.mp h).2.1

end Obeys

/-- Nothing is seen of the program, and it does not return. -/
def Aborts (o : Observer Op Reply) (p : Prog Op Reply ε α) : Prop :=
  ∀ tr out, p.Runs tr out → o.calls tr = [] ∧ ∀ a, out ≠ .value a

/-- The calls of a returning run are a word for what it returns; those of another run are cut
off from a word. -/
structure Speaks (o : Observer Op Reply) (W : α → List (Event Op Reply) → Prop)
    (p : Prog Op Reply ε α) : Prop where
  inhabited : ∃ a word, W a word
  runs : ∀ tr out, p.Runs tr out →
    (∃ a, out = .value a ∧ W a (o.calls tr)) ∨
      (∀ a, out ≠ .value a) ∧ ∃ a word, W a word ∧ CutOff o word (o.calls tr)

section Speaks

variable {W : α → List (Event Op Reply) → Prop}
  {V : α → List (Event Op Reply) → β → List (Event Op Reply) → Prop}
  {U : β → List (Event Op Reply) → Prop}

theorem calls_append (tr rest : List (Event Op Reply)) :
    o.calls (tr ++ rest) = o.calls tr ++ o.calls rest :=
  List.filter_append ..

theorem Speaks.mono {W' : α → List (Event Op Reply) → Prop} {p : Prog Op Reply ε α}
    (h : Speaks o W p) (hW : ∀ a word, W a word → W' a word) : Speaks o W' p := by
  constructor
  · obtain ⟨a, word, hword⟩ := h.inhabited
    exact ⟨a, word, hW a word hword⟩
  · intro tr out hrun
    obtain ⟨a, hout, hword⟩ | ⟨hout, a, word, hword, hcut⟩ := h.runs tr out hrun
    · exact .inl ⟨a, hout, hW a _ hword⟩
    · exact .inr ⟨hout, a, word, hW a word hword, hcut⟩

theorem speaks_pure {a : α} (h : W a []) : Speaks o W (Prog.pure a : Prog Op Reply ε α) := by
  refine ⟨⟨a, [], h⟩, ?_⟩
  rintro tr out ⟨rfl, rfl⟩
  exact .inl ⟨a, rfl, h⟩

theorem speaks_return (o : Observer Op Reply) (a : α) :
    Speaks o (fun b word => b = a ∧ word = []) (Prog.pure a : Prog Op Reply ε α) :=
  speaks_pure ⟨rfl, rfl⟩

theorem Speaks.of_aborts {p : Prog Op Reply ε α} (h : Aborts o p)
    (hW : ∃ a word, W a word) : Speaks o W p := by
  refine ⟨hW, ?_⟩
  intro tr out hrun
  obtain ⟨hcalls, hout⟩ := h tr out hrun
  obtain ⟨a, word, hword⟩ := hW
  rw [hcalls]
  exact .inr ⟨hout, a, word, hword, .stopped List.nil_prefix⟩

theorem speaks_bind {p : Prog Op Reply ε α} {f : α → Prog Op Reply ε β} (hp : Speaks o W p)
    (hf : ∀ a word, W a word → Speaks o (V a word) (f a)) :
    Speaks o
      (fun b word => ∃ a first rest, W a first ∧ V a first b rest ∧ word = first ++ rest)
      (p >>= f) := by
  constructor
  · obtain ⟨a, first, hfirst⟩ := hp.inhabited
    obtain ⟨b, rest, hrest⟩ := (hf a first hfirst).inhabited
    exact ⟨b, first ++ rest, a, first, rest, hfirst, hrest, rfl⟩
  · intro tr out hrun
    -- a run that does not get past `p` is cut off within a word of `p`
    have hstuck : ∀ out', (∀ a, out' ≠ .value a) → p.Runs tr out' →
        ∃ b word, (∃ a first rest, W a first ∧ V a first b rest ∧ word = first ++ rest) ∧
          CutOff o word (o.calls tr) := by
      intro out' hout' hrun'
      obtain ⟨a, rfl, _⟩ | ⟨_, a, first, hfirst, hcut⟩ := hp.runs tr out' hrun'
      · exact absurd rfl (hout' a)
      · obtain ⟨b, rest, hrest⟩ := (hf a first hfirst).inhabited
        exact ⟨b, first ++ rest, ⟨a, first, rest, hfirst, hrest, rfl⟩, hcut.append_right rest⟩
    obtain ⟨a, tr₁, tr₂, rfl, hrun₁, hrun₂⟩ | ⟨e, rfl, hrun'⟩ | ⟨rfl, hrun'⟩ := runs_bind hrun
    · obtain ⟨a', ha', hfirst⟩ | ⟨hout, _⟩ := hp.runs tr₁ _ hrun₁
      · cases ha'
        rw [calls_append]
        obtain ⟨b, hb, hrest⟩ | ⟨hout, b, rest, hrest, hcut⟩ :=
          (hf a _ hfirst).runs tr₂ out hrun₂
        · exact .inl ⟨b, hb, a, _, _, hfirst, hrest, rfl⟩
        · exact .inr ⟨hout, b, _, ⟨a, _, rest, hfirst, hrest, rfl⟩, hcut.append_left _⟩
      · exact absurd rfl (hout a)
    · exact .inr ⟨nofun, hstuck (.error e) nofun hrun'⟩
    · exact .inr ⟨nofun, hstuck .trap nofun hrun'⟩

theorem speaks_unseen_bind {op : Op} {f : Reply op → Prog Op Reply ε α}
    (hop : o.sees op = false) (hreply : Nonempty (Reply op)) (hf : ∀ r, Speaks o W (f r)) :
    Speaks o W (perform op >>= f) := by
  refine ⟨(hf hreply.some).inhabited, ?_⟩
  rintro tr out ⟨r, rest, rfl, hrun⟩
  have hcalls : o.calls (⟨op, r⟩ :: rest) = o.calls rest := by
    simp [Observer.calls, hop]
  rw [hcalls]
  exact (hf r).runs rest out hrun

theorem speaks_ofOutcome (o : Observer Op Reply) (out : Outcome ε α) (a : α) :
    Speaks o (fun _ word => word = []) (ofOutcome out : Prog Op Reply ε α) := by
  cases out with
  | value b => exact speaks_pure rfl
  | error e =>
      refine .of_aborts ?_ ⟨a, [], rfl⟩
      rintro tr out ⟨rfl, rfl⟩
      exact ⟨rfl, nofun⟩
  | trap =>
      refine .of_aborts ?_ ⟨a, [], rfl⟩
      rintro tr out ⟨rfl, rfl⟩
      exact ⟨rfl, nofun⟩

theorem speaks_ofOutcome_bind {out : Outcome ε α} {f : α → Prog Op Reply ε β}
    (hU : ∃ b word, U b word) (hf : ∀ a, out = .value a → Speaks o U (f a)) :
    Speaks o U (ofOutcome out >>= f) := by
  cases out with
  | value a => exact hf a rfl
  | error e =>
      refine .of_aborts ?_ hU
      rintro tr out ⟨rfl, rfl⟩
      exact ⟨rfl, nofun⟩
  | trap =>
      refine .of_aborts ?_ hU
      rintro tr out ⟨rfl, rfl⟩
      exact ⟨rfl, nofun⟩

/-- A call that is seen: if its answer is no failure the program goes on. -/
theorem speaks_seen_bind {op : Op} {f : Reply op → Prog Op Reply ε α}
    {Good : Reply op → Prop} {W : Reply op → α → List (Event Op Reply) → Prop}
    (hop : o.sees op = true) (hgood : ∃ r, Good r)
    (hf : ∀ r, Good r → Speaks o (W r) (f r))
    (hbad : ∀ r, ¬ Good r → o.Fails ⟨op, r⟩ ∧ Aborts o (f r)) :
    Speaks o (fun a word => ∃ r rest, Good r ∧ W r a rest ∧ word = ⟨op, r⟩ :: rest)
      (perform op >>= f) := by
  obtain ⟨r₀, hr₀⟩ := hgood
  obtain ⟨a₀, word₀, hword₀⟩ := (hf r₀ hr₀).inhabited
  refine ⟨⟨a₀, _, r₀, word₀, hr₀, hword₀, rfl⟩, ?_⟩
  rintro tr out ⟨r, rest, rfl, hrun⟩
  have hcalls : o.calls (⟨op, r⟩ :: rest) = ⟨op, r⟩ :: o.calls rest := by
    simp [Observer.calls, hop]
  rw [hcalls]
  by_cases hr : Good r
  · obtain ⟨a, hout, hword⟩ | ⟨hout, a, word, hword, hcut⟩ := (hf r hr).runs rest out hrun
    · exact .inl ⟨a, hout, r, _, hr, hword, rfl⟩
    · exact .inr ⟨hout, a, _, ⟨r, word, hr, hword, rfl⟩, hcut.append_left [⟨op, r⟩]⟩
  · obtain ⟨hfails, haborts⟩ := hbad r hr
    obtain ⟨hnone, hout⟩ := haborts rest out hrun
    rw [hnone]
    refine .inr ⟨hout, a₀, _, ⟨r₀, word₀, hr₀, hword₀, rfl⟩, ?_⟩
    have hfirst : [] ++ [⟨op, r₀⟩] <+: (⟨op, r₀⟩ :: word₀ : List (Event Op Reply)) :=
      List.prefix_append [_] word₀
    exact .failed hfirst rfl hfails

/-- What is left when a thrown error is handled by a program of which nothing is seen. -/
theorem Speaks.runs_tryCatch {p : Prog Op Reply ε α} {handler : ε → Prog Op Reply ε α}
    (hp : Speaks o W p)
    (hhandler : ∀ e tr out, (handler e).Runs tr out → o.calls tr = [])
    {tr : List (Event Op Reply)} {out : Outcome ε α} (hrun : (p.tryCatch handler).Runs tr out) :
    (∃ a, out = .value a ∧ W a (o.calls tr)) ∨
      (out = .trap ∨ ∃ e tr', (handler e).Runs tr' out) ∧
        ∃ a word, W a word ∧ CutOff o word (o.calls tr) := by
  obtain ⟨hrun, hout⟩ | ⟨e, tr₁, tr₂, rfl, hrun, hhandled⟩ := Prog.runs_tryCatch hrun
  · obtain hvalue | ⟨hnot, hcut⟩ := hp.runs tr out hrun
    · exact .inl hvalue
    · cases out with
      | value a => exact absurd rfl (hnot a)
      | error e => exact absurd rfl (hout e)
      | trap => exact .inr ⟨.inl rfl, hcut⟩
  · obtain ⟨a, ha, _⟩ | ⟨_, hcut⟩ := hp.runs tr₁ _ hrun
    · cases ha
    · rw [calls_append, hhandler e tr₂ out hhandled, List.append_nil]
      exact .inr ⟨.inr ⟨e, tr₂, hhandled⟩, hcut⟩

/-- The words of a list of programs, one after the other. -/
inductive Collected (W : ι → α → List (Event Op Reply) → Prop) :
    List ι → List α → List (Event Op Reply) → Prop
  | nil : Collected W [] [] []
  | cons {x xs a as first rest} : W x a first → Collected W xs as rest →
      Collected W (x :: xs) (a :: as) (first ++ rest)

theorem Collected.mono {W W' : ι → α → List (Event Op Reply) → Prop} {xs : List ι} {as : List α}
    {word : List (Event Op Reply)} (h : Collected W xs as word)
    (hW : ∀ x a word, W x a word → W' x a word) : Collected W' xs as word := by
  induction h with
  | nil => exact .nil
  | cons hfirst _ ih => exact .cons (hW _ _ _ hfirst) ih

theorem speaks_collect {W : ι → α → List (Event Op Reply) → Prop}
    {f : ι → Prog Op Reply ε α} (xs : List ι) (hf : ∀ x ∈ xs, Speaks o (W x) (f x)) :
    Speaks o (Collected W xs) (collect f xs) := by
  induction xs with
  | nil => exact speaks_pure .nil
  | cons x xs ih =>
      have htail := ih fun y hy => hf y (List.mem_cons_of_mem x hy)
      have hword := speaks_bind (hf x List.mem_cons_self) fun a _ _ =>
        speaks_bind htail fun as _ _ => speaks_return o (a :: as)
      refine hword.mono ?_
      rintro bs word ⟨a, first, _, hfirst, ⟨as, rest, _, hrest, ⟨rfl, rfl⟩, rfl⟩, rfl⟩
      rw [List.append_nil]
      exact .cons hfirst hrest

theorem runs_collect_value {f : ι → Prog Op Reply ε α} {xs : List ι}
    {tr : List (Event Op Reply)} {as : List α} (h : (collect f xs).Runs tr (.value as)) :
    Collected (fun x a tr => (f x).Runs tr (.value a)) xs as tr := by
  induction xs generalizing tr as with
  | nil =>
      obtain ⟨rfl, has⟩ := h
      cases has
      exact .nil
  | cons x xs ih =>
      obtain ⟨a, first, rest, rfl, hfirst, hrest⟩ | ⟨e, he, _⟩ | ⟨htrap, _⟩ := runs_bind h
      · obtain ⟨as', tail, _, rfl, htail, rfl, has⟩ | ⟨e, he, _⟩ | ⟨htrap, _⟩ := runs_bind hrest
        · cases has
          rw [List.append_nil]
          exact .cons hfirst (ih htail)
        · cases he
        · cases htrap
      · cases he
      · cases htrap

theorem runs_collect {f : ι → Prog Op Reply ε α} {xs : List ι} {tr : List (Event Op Reply)}
    {as : List α} (h : Collected (fun x a tr => (f x).Runs tr (.value a)) xs as tr) :
    (collect f xs).Runs tr (.value as) := by
  induction h with
  | nil => exact ⟨rfl, rfl⟩
  | @cons _ _ a _ _ _ hfirst _ ih => exact hfirst.bind (ih.bind_pure (a :: ·))

end Speaks

end OracleNIO.CallLanguages
