import OracleNIO.DynamicElements
import Mathlib.Algebra.Group.Action.Defs

/-!
Runs of an element of a dynamic variable.  It behaves as one string of bytes that is
emptied, appended to, read and replaced; the one call that can go wrong sets a value
after an allocation has failed.
-/

namespace OracleNIO.DynamicValues

open Dpi DynamicElements ObjectStore

/-- What is done with an element. -/
inductive Event where
  | preFetch
  | piece (bytes : List UInt8)
  | getValue
  | setValue (bytes : List UInt8)
deriving DecidableEq, Repr

/-- What a call on the element returns. -/
inductive Result where
  | done (succeeded : Bool)
  | value (bytes : Option (List UInt8))
deriving DecidableEq, Repr

/-- The call has not failed. -/
def Result.Succeeded : Result → Prop
  | .done succeeded => succeeded = true
  | .value bytes => bytes.isSome = true

instance : DecidablePred Result.Succeeded
  | .done succeeded => inferInstanceAs (Decidable (succeeded = true))
  | .value bytes => inferInstanceAs (Decidable (bytes.isSome = true))

/-- One call; there is no next state where it goes wrong. -/
def step (element : DynamicElement) : Event → Option (Result × DynamicElement)
  | .preFetch => some (.done true, element.extendedPreFetch)
  | .piece bytes => (element.deliverPiece bytes).map fun r => (.done r.1, r.2)
  | .getValue => element.setBytesFromDynamicBytes.map fun r => (.value r.1, r.2)
  | .setValue bytes => (element.setFromBytes bytes).map fun r => (.done r.1, r.2)

def run : DynamicElement → List Event → Option (List Result × DynamicElement)
  | element, [] => some ([], element)
  | element, event :: events => do
      let (result, element) ← step element event
      let (results, element) ← run element events
      some (result :: results, element)

/-- What OCI and the callers of ODPI-C keep to: a piece fits into the chunk that it is
put into, a value is read only when there is one, and no length comes near to `2 ^ 32`. -/
def Within (element : DynamicElement) : Event → Prop
  | .preFetch => True
  | .piece bytes => bytes.length ≤ offered element
  | .getValue =>
      0 < element.bytes.numChunks ∧ totalAllocatedLength element < DynamicElement.uint32Size
  | .setValue bytes => bytes.length + 65535 < DynamicElement.uint32Size

instance (element : DynamicElement) : DecidablePred (Within element)
  | .preFetch => inferInstanceAs (Decidable True)
  | .piece _ => inferInstanceAs (Decidable (_ ≤ _))
  | .getValue => inferInstanceAs (Decidable (_ ∧ _))
  | .setValue _ => inferInstanceAs (Decidable (_ < _))

/-- Every call of the run is within the limits. -/
def RunWithin : DynamicElement → List Event → Prop
  | _, [] => True
  | element, event :: events => Within element event ∧
      ∀ result element', step element event = some (result, element') → RunWithin element' events

/-- The event writes a value through the null pointer. -/
def NullWrite (element : DynamicElement) : Event → Prop
  | .setValue bytes => Torn element bytes.length
  | _ => False

/-- What one string of bytes answers, and what it is afterwards. -/
def accumulate (held : List UInt8) : Event → Result → Option (List UInt8)
  | .preFetch, .done true => some []
  | .piece bytes, .done succeeded => some (held ++ if succeeded then bytes else [])
  | .getValue, .value bytes => if bytes.all (· = held) then some held else none
  | .setValue bytes, .done succeeded => some (if succeeded then bytes else [])
  | _, _ => none

/-- The bytes that the element holds after the calls, if each of them kept to its part. -/
def accumulated : List UInt8 → List Event → List Result → Option (List UInt8)
  | held, [], [] => some held
  | held, event :: events, result :: results => do
      accumulated (← accumulate held event result) events results
  | _, _, _ => none

section Runs

variable {element element' : DynamicElement} {event : Event} {events : List Event}
  {result : Result} {results : List Result}

/-- A step does what it does to one string of bytes. -/
theorem step_spec (h : Sound element) (hwithin : Within element event)
    (hnull : ¬ NullWrite element event) :
    ∃ result element', step element event = some (result, element') ∧ Sound element' ∧
      accumulate (contents element) event result = some (contents element') ∧
      (Ample element → result.Succeeded ∧ Ample element') := by
  cases event with
  | preFetch =>
      exact ⟨_, _, rfl, h.extendedPreFetch, congrArg some (contents_of_unused rfl).symm,
        fun ha => ⟨rfl, ha.extendedPreFetch⟩⟩
  | piece bytes =>
      obtain ⟨succeeded, element', heq, hsound, hcontents, hample⟩ := deliverPiece_spec h hwithin
      exact ⟨.done succeeded, element', by rw [step, heq]; rfl, hsound,
        congrArg some hcontents.symm, hample⟩
  | getValue =>
      obtain ⟨bytes, element', heq, hsound, hcontents, hread, hample⟩ :=
        setBytesFromDynamicBytes_spec h hwithin.1 hwithin.2
      refine ⟨.value bytes, element', by rw [step, heq]; rfl, hsound, ?_, hample⟩
      have hall : bytes.all (· = contents element) = true := by
        cases bytes with
        | none => rfl
        | some bytes => simpa using hread bytes rfl
      rw [hcontents]
      simp [accumulate, hall]
  | setValue bytes =>
      obtain ⟨succeeded, element', heq, hsound, hcontents, hample⟩ :=
        setFromBytes_spec h hwithin hnull
      exact ⟨.done succeeded, element', by rw [step, heq]; rfl, hsound,
        congrArg some hcontents.symm, hample⟩

theorem step_eq_none (h : NullWrite element event) : step element event = none := by
  cases event with
  | setValue bytes =>
      rw [step, setFromBytes_of_torn h]
      rfl
  | preFetch => exact h.elim
  | piece bytes => exact h.elim
  | getValue => exact h.elim

theorem step_some (h : Sound element) (hwithin : Within element event)
    (hstep : step element event = some (result, element')) :
    Sound element' ∧ accumulate (contents element) event result = some (contents element') := by
  have hnull : ¬ NullWrite element event := by
    intro hnull
    rw [step_eq_none hnull] at hstep
    cases hstep
  obtain ⟨result', element'', heq, hsound, haccumulate, -⟩ := step_spec h hwithin hnull
  rw [heq] at hstep
  cases hstep
  exact ⟨hsound, haccumulate⟩

theorem run_cons :
    run element (event :: events) = some (results, element') ↔
      ∃ result after rest, step element event = some (result, after) ∧
        run after events = some (rest, element') ∧ results = result :: rest := by
  simp only [run, Option.bind_eq_bind, Option.bind_eq_some_iff, Option.some.injEq, Prod.mk.injEq,
    Prod.exists]
  constructor
  · rintro ⟨result, after, hstep, rest, last, hrun, rfl, rfl⟩
    exact ⟨result, after, rest, hstep, hrun, rfl⟩
  · rintro ⟨result, after, rest, hstep, hrun, rfl⟩
    exact ⟨result, after, hstep, rest, element', hrun, rfl, rfl⟩

theorem run_some (h : Sound element) (hwithin : RunWithin element events)
    (hrun : run element events = some (results, element')) :
    Sound element' ∧ accumulated (contents element) events results = some (contents element') := by
  induction events generalizing element results with
  | nil =>
      cases hrun
      exact ⟨h, rfl⟩
  | cons event events ih =>
      obtain ⟨result, after, rest, hstep, hrest, rfl⟩ := run_cons.mp hrun
      obtain ⟨hsound, haccumulate⟩ := step_some h hwithin.1 hstep
      obtain ⟨hlast, haccumulated⟩ := ih hsound (hwithin.2 result after hstep) hrest
      refine ⟨hlast, ?_⟩
      rw [accumulated, haccumulate]
      exact haccumulated

theorem run_eq_none_iff (h : Sound element) (hwithin : RunWithin element events) :
    run element events = none ↔ ∃ before event after results element',
      events = before ++ event :: after ∧ run element before = some (results, element') ∧
        NullWrite element' event := by
  induction events generalizing element with
  | nil =>
      constructor
      · intro hnone
        cases hnone
      · rintro ⟨before, event, after, results, element', heq, -⟩
        cases before <;> cases heq
  | cons first events ih =>
      by_cases hnull : NullWrite element first
      · have hnone : run element (first :: events) = none := by
          rw [run, step_eq_none hnull]
          rfl
        exact ⟨fun _ => ⟨[], first, events, [], element, rfl, rfl, hnull⟩, fun _ => hnone⟩
      · obtain ⟨result, next, hstep, hsound, -⟩ := step_spec h hwithin.1 hnull
        have hrest := ih hsound (hwithin.2 result next hstep)
        have hiff : run element (first :: events) = none ↔ run next events = none := by
          rw [run, hstep]
          cases hrun : run next events <;> simp [hrun]
        rw [hiff, hrest]
        constructor
        · rintro ⟨before, event, after, results, element', rfl, hrun, hevent⟩
          exact ⟨first :: before, event, after, result :: results, element', rfl,
            run_cons.mpr ⟨result, next, results, hstep, hrun, rfl⟩, hevent⟩
        · rintro ⟨before, event, after, results, element', heq, hrun, hevent⟩
          cases before with
          | nil =>
              cases heq
              cases hrun
              exact absurd hevent hnull
          | cons _ before =>
              cases heq
              obtain ⟨result', next', rest, hstep', hrun', rfl⟩ := run_cons.mp hrun
              rw [hstep] at hstep'
              cases hstep'
              exact ⟨before, event, after, rest, element', rfl, hrun', hevent⟩

theorem not_nullWrite (h : Ample element) : ¬ NullWrite element event := by
  cases event with
  | setValue bytes =>
      rintro ⟨hpos, hnone, hle⟩
      cases hhead : element.bytes.chunks.head? with
      | none =>
          rw [hhead] at hle
          exact absurd (Nat.lt_of_lt_of_le hpos hle) (Nat.lt_irrefl 0)
      | some chunk =>
          rw [hhead] at hnone hle
          rw [Option.getD_some] at hnone hle
          rw [h.whole chunk (List.mem_of_mem_head? hhead) hnone] at hle
          omega
  | preFetch => exact id
  | piece bytes => exact id
  | getValue => exact id

theorem ample_run (hsound : Sound element) (hample : Ample element)
    (hwithin : RunWithin element events) :
    ∃ results element', run element events = some (results, element') ∧
      ∀ result ∈ results, result.Succeeded := by
  induction events generalizing element with
  | nil => exact ⟨[], element, rfl, fun result hresult => by cases hresult⟩
  | cons event events ih =>
      obtain ⟨result, next, hstep, hsound', -, hample'⟩ :=
        step_spec hsound hwithin.1 (not_nullWrite hample)
      obtain ⟨hresult, hnext⟩ := hample' hample
      obtain ⟨results, element', hrun, hall⟩ :=
        ih hsound' hnext (hwithin.2 result next hstep)
      refine ⟨result :: results, element', run_cons.mpr ⟨result, next, results, hstep, hrun, rfl⟩,
        ?_⟩
      intro r hr
      rcases List.mem_cons.mp hr with rfl | hr
      · exact hresult
      · exact hall r hr

end Runs

section Fetch

variable {element element' : DynamicElement} {events : List Event} {piece : List UInt8}
  {pieces : List (List UInt8)} {succeeded : Bool} {uninitialised : Nat → Nat → UInt8}

theorem runWithin_append (before after : List Event) :
    RunWithin element (before ++ after) ↔ RunWithin element before ∧
      ∀ results element', run element before = some (results, element') →
        RunWithin element' after := by
  induction before generalizing element with
  | nil =>
      constructor
      · intro h
        refine ⟨trivial, ?_⟩
        rintro results element' ⟨⟩
        exact h
      · intro h
        exact h.2 [] element rfl
  | cons event before ih =>
      simp only [List.cons_append, RunWithin, ih]
      constructor
      · rintro ⟨hwithin, hrest⟩
        refine ⟨⟨hwithin, fun result next hstep => (hrest result next hstep).1⟩, ?_⟩
        intro results last hrun
        obtain ⟨result, next, rest, hstep, hnext, rfl⟩ := run_cons.mp hrun
        exact (hrest result next hstep).2 rest last hnext
      · rintro ⟨⟨hwithin, hbefore⟩, hafter⟩
        refine ⟨hwithin, fun result next hstep => ⟨hbefore result next hstep, ?_⟩⟩
        intro results last hrun
        exact hafter _ last (run_cons.mpr ⟨result, next, results, hstep, hrun, rfl⟩)

/-- Every chunk with a block has the size of a chunk that is made for a piece. -/
def Fitted (element : DynamicElement) : Prop :=
  ∀ chunk ∈ element.bytes.chunks, chunk.allocatedLength ≤ DpiVar.dynamicBytesChunkSize ∧
    (chunk.ptr = none ∨ chunk.allocatedLength = DpiVar.dynamicBytesChunkSize)

theorem Fitted.setMemory (h : Fitted element) (memory : BlockMemory) :
    Fitted { element with memory } := h

theorem Fitted.setChunk (h : Fitted element) {i : Nat} {chunk : Chunk}
    (hchunk : chunk.allocatedLength ≤ DpiVar.dynamicBytesChunkSize ∧
      (chunk.ptr = none ∨ chunk.allocatedLength = DpiVar.dynamicBytesChunkSize)) :
    Fitted (element.setChunk i chunk) := by
  intro c hc
  rcases List.mem_or_eq_of_mem_set hc with hc | rfl
  · exact h c hc
  · exact hchunk

theorem Fitted.offered (h : Fitted element) :
    offered element = DpiVar.dynamicBytesChunkSize := by
  unfold DynamicElements.offered
  cases hchunk : element.bytes.chunks[element.bytes.numChunks]? with
  | none => rfl
  | some chunk =>
      rcases (h chunk (List.mem_of_getElem? hchunk)).2 with hptr | hlength
      · rw [Option.bind_some, hptr]
        rfl
      · cases hptr : chunk.ptr with
        | none => rw [Option.bind_some, hptr]; rfl
        | some place => rw [Option.bind_some, hptr, Option.map_some, hlength]; rfl

theorem Fitted.room (h : Fitted element) :
    ∃ succeeded element', (if element.bytes.numChunks = element.bytes.chunks.length then
        element.allocateChunks else (true, element)) = (succeeded, element') ∧
      Fitted element' ∧ element'.bytes.numChunks = element.bytes.numChunks := by
  split
  next hfull =>
    rcases allocateChunks_of_full hfull with ⟨heq, -⟩ | heq
    · exact ⟨_, _, heq, h, rfl⟩
    · refine ⟨_, _, heq, fun chunk hchunk => ?_, rfl⟩
      rcases List.mem_append.mp hchunk with hchunk | hchunk
      · exact h chunk hchunk
      · rw [List.eq_of_mem_replicate hchunk]
        exact ⟨Nat.zero_le _, .inl rfl⟩
  next => exact ⟨_, _, rfl, h, rfl⟩

theorem Fitted.totalAllocatedLength_le (h : Fitted element) :
    totalAllocatedLength element ≤ element.bytes.numChunks * DpiVar.dynamicBytesChunkSize := by
  have hsum := List.sum_le_card_nsmul
    ((element.bytes.chunks.take element.bytes.numChunks).map (·.allocatedLength))
    DpiVar.dynamicBytesChunkSize fun length hlength => by
      obtain ⟨chunk, hchunk, rfl⟩ := List.mem_map.mp hlength
      exact (h chunk (List.mem_of_mem_take hchunk)).1
  rw [List.length_map, smul_eq_mul] at hsum
  exact hsum.trans (Nat.mul_le_mul_right _ (List.length_take_le _ _))

theorem Fitted.defineCallback (h : Fitted element)
    (hcall : element.defineCallback = some (succeeded, element')) :
    Fitted element' ∧ element'.bytes.numChunks =
      element.bytes.numChunks + (if succeeded then 1 else 0) := by
  obtain ⟨made, roomy, hroom, hfitted, hnum⟩ := h.room
  rw [DynamicElement.defineCallback, hroom] at hcall
  cases made with
  | false =>
      cases hcall
      exact ⟨hfitted, hnum⟩
  | true =>
      simp only [Bool.true_eq_false, if_false, Option.bind_eq_bind] at hcall
      obtain ⟨chunk, hchunk, hcall⟩ := Option.bind_eq_some_iff.mp hcall
      have hsize := hfitted chunk (List.mem_of_getElem? hchunk)
      cases hptr : chunk.ptr with
      | some place =>
          simp only [hptr, Option.isNone_some, Bool.false_eq_true, if_false, Option.some.injEq,
            Prod.mk.injEq] at hcall
          obtain ⟨rfl, rfl⟩ := hcall
          refine ⟨?_, by rw [← hnum]; rfl⟩
          exact hfitted.setChunk ⟨hsize.1, .inr (hsize.2.resolve_left (by simp [hptr]))⟩
      | none =>
          rcases allocateMemory_cases roomy.memory DpiVar.dynamicBytesChunkSize with
            ⟨heq, -⟩ | ⟨block, -, heq⟩
          · simp only [hptr, heq, Option.isNone_none, if_true, Option.some.injEq,
              Prod.mk.injEq] at hcall
            obtain ⟨rfl, rfl⟩ := hcall
            exact ⟨(hfitted.setMemory _).setChunk ⟨Nat.le_refl _, .inl rfl⟩, hnum⟩
          · simp only [hptr, heq, Option.isNone_none, Option.isNone_some, if_true,
              Bool.false_eq_true, if_false, Option.some.injEq, Prod.mk.injEq] at hcall
            obtain ⟨rfl, rfl⟩ := hcall
            refine ⟨?_, by rw [← hnum]; rfl⟩
            exact ((hfitted.setMemory _).setChunk ⟨Nat.le_refl _, .inr rfl⟩).setChunk
              ⟨Nat.le_refl _, .inr rfl⟩

theorem Fitted.deliverPiece (h : Fitted element)
    (hpiece : element.deliverPiece piece = some (succeeded, element')) :
    Fitted element' ∧ element'.bytes.numChunks =
      element.bytes.numChunks + (if succeeded then 1 else 0) := by
  obtain ⟨⟨made, after⟩, hcall, hpiece⟩ := Option.bind_eq_some_iff.mp hpiece
  obtain ⟨hfitted, hnum⟩ := h.defineCallback hcall
  cases made with
  | false =>
      cases hpiece
      exact ⟨hfitted, hnum⟩
  | true =>
      simp only [Bool.true_eq_false, if_false, Option.bind_eq_bind] at hpiece
      obtain ⟨chunk, hchunk, hpiece⟩ := Option.bind_eq_some_iff.mp hpiece
      obtain ⟨memory, -, hpiece⟩ := Option.bind_eq_some_iff.mp hpiece
      cases hpiece
      exact ⟨(hfitted.setMemory memory).setChunk (hfitted chunk (List.mem_of_getElem? hchunk)),
        hnum⟩

theorem pieces_within (hsound : Sound element) (hfitted : Fitted element)
    (hpieces : ∀ piece ∈ pieces, piece.length ≤ DpiVar.dynamicBytesChunkSize) :
    RunWithin element (pieces.map .piece) := by
  induction pieces generalizing element with
  | nil => trivial
  | cons piece pieces ih =>
      have hwithin : Within element (.piece piece) :=
        (hpieces piece List.mem_cons_self).trans_eq hfitted.offered.symm
      refine ⟨hwithin, fun result next hstep => ?_⟩
      obtain ⟨⟨succeeded, next⟩, hpiece, heq⟩ := Option.map_eq_some_iff.mp hstep
      cases heq
      exact ih (step_some hsound hwithin hstep).1 (hfitted.deliverPiece hpiece).1
        fun piece hpiece => hpieces piece (List.mem_cons_of_mem _ hpiece)

theorem pieces_run (hsound : Sound element) (hample : Ample element) (hfitted : Fitted element)
    (hpieces : ∀ piece ∈ pieces, piece.length ≤ DpiVar.dynamicBytesChunkSize) :
    ∃ results element', run element (pieces.map .piece) = some (results, element') ∧
      Fitted element' ∧
      element'.bytes.numChunks = element.bytes.numChunks + pieces.length := by
  induction pieces generalizing element with
  | nil => exact ⟨[], element, rfl, hfitted, rfl⟩
  | cons piece pieces ih =>
      have hfit : piece.length ≤ offered element :=
        hfitted.offered ▸ hpieces piece List.mem_cons_self
      obtain ⟨succeeded, next, hpiece, hsound', -, hample'⟩ := deliverPiece_spec hsound hfit
      obtain ⟨rfl, hnext⟩ := hample' hample
      obtain ⟨hfitted', hnum⟩ := hfitted.deliverPiece hpiece
      obtain ⟨results, element', hrun, hlast, hlength⟩ := ih hsound' hnext hfitted'
        fun piece hpiece => hpieces piece (List.mem_cons_of_mem _ hpiece)
      have hstep : step element (.piece piece) = some (.done true, next) := by
        rw [step, hpiece]
        rfl
      refine ⟨_, element', run_cons.mpr ⟨_, next, results, hstep, hrun, rfl⟩, hlast, ?_⟩
      rw [hlength, hnum, if_pos rfl, List.length_cons]
      omega

/-- The pieces of one fetch, and the value that is read from them. -/
def fetch (pieces : List (List UInt8)) : List Event := pieces.map .piece ++ [.getValue]

theorem fetch_within (hpieces : ∀ piece ∈ pieces, piece.length ≤ DpiVar.dynamicBytesChunkSize)
    (hpos : 0 < pieces.length)
    (hcount : pieces.length * DpiVar.dynamicBytesChunkSize < DynamicElement.uint32Size) :
    RunWithin (fresh [] uninitialised) (fetch pieces) := by
  have hsound := fresh_sound [] uninitialised
  have hfitted : Fitted (fresh [] uninitialised) := fun chunk hchunk => by cases hchunk
  refine (runWithin_append _ _).mpr ⟨pieces_within hsound hfitted hpieces, ?_⟩
  intro results element hrun
  obtain ⟨results', element', hrun', hfitted', hnum⟩ :=
    pieces_run hsound (fresh_ample uninitialised) hfitted hpieces
  rw [hrun] at hrun'
  cases hrun'
  have hlength : element.bytes.numChunks = pieces.length := hnum.trans (Nat.zero_add _)
  have htotal := hfitted'.totalAllocatedLength_le
  rw [hlength] at htotal
  exact ⟨⟨hlength ▸ hpos, Nat.lt_of_le_of_lt htotal hcount⟩, fun _ _ _ => trivial⟩

theorem accumulated_fetch {held last : List UInt8} {results : List Result}
    (h : accumulated held (fetch pieces) results = some last)
    (hall : ∀ result ∈ results, result.Succeeded) :
    results = List.replicate pieces.length (.done true) ++
      [.value (some (held ++ pieces.flatten))] := by
  induction pieces generalizing held results with
  | nil =>
      cases results with
      | nil => cases h
      | cons result results =>
          obtain ⟨after, hafter, hrest⟩ := Option.bind_eq_some_iff.mp h
          cases results with
          | cons => cases hrest
          | nil =>
              have hresult := hall result List.mem_cons_self
              cases result with
              | done succeeded => cases hafter
              | value bytes =>
                  obtain ⟨bytes, rfl⟩ := Option.isSome_iff_exists.mp hresult
                  simp only [accumulate, Option.all_some, decide_eq_true_eq,
                    Option.ite_none_right_eq_some] at hafter
                  simp [hafter.1]
  | cons piece pieces ih =>
      cases results with
      | nil => cases h
      | cons result results =>
          obtain ⟨after, hafter, hrest⟩ := Option.bind_eq_some_iff.mp h
          have hresult := hall result List.mem_cons_self
          cases result with
          | value bytes => cases hafter
          | done succeeded =>
              obtain rfl : succeeded = true := hresult
              obtain rfl : held ++ piece = after := Option.some.inj hafter
              rw [ih hrest fun result hmem => hall result (List.mem_cons_of_mem _ hmem)]
              simp [List.replicate_succ, List.append_assoc]

theorem fetch_value (hpieces : ∀ piece ∈ pieces, piece.length ≤ DpiVar.dynamicBytesChunkSize)
    (hpos : 0 < pieces.length)
    (hcount : pieces.length * DpiVar.dynamicBytesChunkSize < DynamicElement.uint32Size) :
    ∃ element, run (fresh [] uninitialised) (fetch pieces) =
      some (List.replicate pieces.length (.done true) ++ [.value (some pieces.flatten)],
        element) := by
  have hwithin : RunWithin (fresh [] uninitialised) (fetch pieces) :=
    fetch_within hpieces hpos hcount
  obtain ⟨results, element, hrun, hall⟩ :=
    ample_run (fresh_sound [] uninitialised) (fresh_ample uninitialised) hwithin
  obtain ⟨-, haccumulated⟩ := run_some (fresh_sound [] uninitialised) hwithin hrun
  rw [accumulated_fetch haccumulated hall] at hrun
  exact ⟨element, hrun⟩

end Fetch

section Results

variable {fails : List Bool} {uninitialised : Nat → Nat → UInt8} {events : List Event}

/-- The values that are read are the pieces delivered since the last fetch began, or the
value last set, and in the end every block is freed once. -/
theorem values_read {results : List Result} {element : DynamicElement}
    (hwithin : RunWithin (fresh fails uninitialised) events)
    (hrun : run (fresh fails uninitialised) events = some (results, element)) :
    accumulated [] events results = some (contents element) ∧
      ∃ element', element.finalizeBuffer = some element' ∧
        ∀ place, get element'.memory.blocks place = none := by
  obtain ⟨hsound, haccumulated⟩ := run_some (fresh_sound fails uninitialised) hwithin hrun
  exact ⟨haccumulated, finalizeBuffer_spec hsound⟩

theorem values_read_two_pieces : ∃ results element,
    run (fresh [] fun _ _ => 0) (fetch [[1, 2], [3]]) = some (results, element) ∧
      accumulated [] (fetch [[1, 2], [3]]) results = some (contents element) ∧
        ∃ element', element.finalizeBuffer = some element' ∧
          ∀ place, get element'.memory.blocks place = none := by
  have hwithin : RunWithin (fresh [] fun _ _ => 0) (fetch [[1, 2], [3]]) :=
    fetch_within (by decide) (by decide) (by decide)
  obtain ⟨results, element, hrun, -⟩ := ample_run (fresh_sound [] _) (fresh_ample _) hwithin
  exact ⟨results, element, hrun, values_read hwithin hrun⟩

/-- A run touches memory that is not its own exactly where it sets a value whose length
the first chunk claims to have room for, but an allocation has left it without its block. -/
theorem run_faults_iff (hwithin : RunWithin (fresh fails uninitialised) events) :
    run (fresh fails uninitialised) events = none ↔ ∃ before value after results element,
      events = before ++ .setValue value :: after ∧
      run (fresh fails uninitialised) before = some (results, element) ∧
      Torn element value.length := by
  rw [run_eq_none_iff (fresh_sound fails uninitialised) hwithin]
  constructor
  · rintro ⟨before, event, after, results, element, heq, hrun, hnull⟩
    cases event with
    | setValue value => exact ⟨before, value, after, results, element, heq, hrun, hnull⟩
    | preFetch => exact hnull.elim
    | piece bytes => exact hnull.elim
    | getValue => exact hnull.elim
  · rintro ⟨before, value, after, results, element, heq, hrun, htorn⟩
    exact ⟨before, .setValue value, after, results, element, heq, hrun, htorn⟩

/-- The second value is shorter than the first, for which there was no memory. -/
theorem run_faults_iff_after_failure :
    run (fresh [false, true] fun _ _ => 0) [.setValue [1, 2], .setValue [3]] = none := by
  have hwithin : RunWithin (fresh [false, true] fun _ _ => 0)
      [.setValue [1, 2], .setValue [3]] :=
    ⟨show 2 + 65535 < 4294967296 by decide, fun _ _ _ =>
      ⟨show 1 + 65535 < 4294967296 by decide, fun _ _ _ => trivial⟩⟩
  exact (run_faults_iff hwithin).mpr
    ⟨[.setValue [1, 2]], [3], [], _, _, rfl, rfl, by decide⟩

/-- With enough memory every call within the limits succeeds. -/
theorem run_ample (hwithin : RunWithin (fresh [] uninitialised) events) :
    ∃ results element, run (fresh [] uninitialised) events = some (results, element) ∧
      ∀ result ∈ results, result.Succeeded :=
  ample_run (fresh_sound [] uninitialised) (fresh_ample uninitialised) hwithin

theorem run_ample_two_pieces : ∃ results element,
    run (fresh [] fun _ _ => 0) (fetch [[1, 2], [3]]) = some (results, element) ∧
      ∀ result ∈ results, result.Succeeded :=
  run_ample (fetch_within (by decide) (by decide) (by decide))

end Results

end OracleNIO.DynamicValues
