import OracleNIO.DpiDynamicBytes
import OracleNIO.LabelledRuns
import Mathlib.Data.List.Nodup

/-!
An element of a dynamic variable over its whole life: which of its chunks own memory,
and which bytes are read from it after OCI has delivered a value in pieces.
-/

namespace OracleNIO.DynamicElements

open Dpi ObjectStore ByteMemory

/-! ### Ownership -/

def ptrs (chunks : List Chunk) : List Nat := chunks.filterMap Chunk.ptr

/-- The bytes that are in use of the block of the chunk. -/
def chunkBytes (memory : BlockMemory) (chunk : Chunk) : List UInt8 :=
  ((chunk.ptr.bind (get memory.blocks)).getD []).take chunk.length

/-- The bytes that the chunks in use hold. -/
def contents (element : DynamicElement) : List UInt8 :=
  (element.bytes.chunks.take element.bytes.numChunks).flatMap (chunkBytes element.memory)

/-- Each chunk owns its block, each block has one owner, and the chunks in use are filled
within their blocks. -/
structure Sound (element : DynamicElement) : Prop where
  numChunks_le : element.bytes.numChunks ≤ element.bytes.chunks.length
  distinct : (ptrs element.bytes.chunks).Nodup
  live : ∀ chunk ∈ element.bytes.chunks, ∀ place, chunk.ptr = some place →
    ∃ block, get element.memory.blocks place = some block ∧
      block.length = chunk.allocatedLength
  owned : ∀ place block, get element.memory.blocks place = some block →
    place ∈ ptrs element.bytes.chunks
  used : ∀ chunk ∈ element.bytes.chunks.take element.bytes.numChunks,
    chunk.length ≤ chunk.allocatedLength ∧ (chunk.ptr = none → chunk.length = 0)

/-- An element that nothing has been done with, in a memory without other blocks. -/
def fresh (fails : List Bool) (uninitialised : Nat → Nat → UInt8) : DynamicElement :=
  ⟨⟨0, []⟩, ⟨[], fails, uninitialised⟩⟩

section Ownership

variable {front back : List Chunk} {chunk chunk' : Chunk} {memory memory' : BlockMemory}
  {element : DynamicElement} {n n' : Nat}

@[simp]
theorem ptrs_append (chunks more : List Chunk) : ptrs (chunks ++ more) = ptrs chunks ++ ptrs more :=
  List.filterMap_append ..

theorem mem_ptrs {chunks : List Chunk} {place : Nat} :
    place ∈ ptrs chunks ↔ ∃ chunk ∈ chunks, chunk.ptr = some place := List.mem_filterMap

@[simp]
theorem ptrs_replicate_empty (k : Nat) : ptrs (List.replicate k Chunk.empty) = [] := by
  induction k with
  | zero => rfl
  | succ k ih =>
      rw [List.replicate_succ]
      exact ih

theorem fresh_sound (fails : List Bool) (uninitialised : Nat → Nat → UInt8) :
    Sound (fresh fails uninitialised) where
  numChunks_le := Nat.le_refl _
  distinct := List.nodup_nil
  live := fun chunk hchunk => by cases hchunk
  owned := fun place block hblock => by simp [fresh, ObjectStore.get] at hblock
  used := fun chunk hchunk => by cases hchunk

theorem chunkBytes_congr
    (h : ∀ place, chunk.ptr = some place → get memory'.blocks place = get memory.blocks place) :
    chunkBytes memory' chunk = chunkBytes memory chunk := by
  unfold chunkBytes
  cases hptr : chunk.ptr with
  | none => rfl
  | some place => rw [Option.bind_some, Option.bind_some, h place hptr]

theorem flatMap_chunkBytes_congr {chunks : List Chunk}
    (h : ∀ place ∈ ptrs chunks, get memory'.blocks place = get memory.blocks place) :
    chunks.flatMap (chunkBytes memory') = chunks.flatMap (chunkBytes memory) := by
  apply List.flatMap_congr
  intro chunk hchunk
  exact chunkBytes_congr fun place hplace => h place (mem_ptrs.mpr ⟨chunk, hchunk, hplace⟩)

theorem Sound.replace (h : Sound ⟨⟨n, front ++ chunk :: back⟩, memory⟩)
    (hothers : ∀ place ∈ ptrs (front ++ back),
      get memory'.blocks place = get memory.blocks place)
    (hptr : ∀ place, chunk'.ptr = some place → place ∉ ptrs (front ++ back) ∧
      ∃ block, get memory'.blocks place = some block ∧ block.length = chunk'.allocatedLength)
    (howned : ∀ place block, get memory'.blocks place = some block →
      place ∈ ptrs (front ++ chunk' :: back))
    (hn : n' ≤ (front ++ chunk' :: back).length)
    (hused : ∀ c ∈ (front ++ chunk' :: back).take n',
      c.length ≤ c.allocatedLength ∧ (c.ptr = none → c.length = 0)) :
    Sound ⟨⟨n', front ++ chunk' :: back⟩, memory'⟩ where
  numChunks_le := hn
  distinct := by
    have hdistinct : (ptrs (front ++ chunk :: back)).Nodup := h.distinct
    have hrest : (ptrs (front ++ back)).Nodup := by
      refine hdistinct.sublist (List.Sublist.filterMap Chunk.ptr ?_)
      exact List.Sublist.append_left (List.sublist_cons_self chunk back) front
    cases hplace : chunk'.ptr with
    | none => simpa [ptrs, hplace] using hrest
    | some place =>
        have hnot := (hptr place hplace).1
        rw [ptrs_append] at hrest hnot
        have hcons : ptrs (chunk' :: back) = place :: ptrs back := by simp [ptrs, hplace]
        rw [ptrs_append, hcons, List.nodup_middle, List.nodup_cons]
        exact ⟨hnot, hrest⟩
  live := by
    intro c hc place hplace
    have hother : c ∈ front ++ back → ∃ block, get memory'.blocks place = some block ∧
        block.length = c.allocatedLength := by
      intro hc'
      rw [hothers place (mem_ptrs.mpr ⟨c, hc', hplace⟩)]
      refine h.live c ?_ place hplace
      simp only [List.mem_append, List.mem_cons] at hc' ⊢
      tauto
    rcases List.mem_append.mp hc with hc | hc
    · exact hother (List.mem_append_left back hc)
    · rcases List.mem_cons.mp hc with rfl | hc
      · exact (hptr place hplace).2
      · exact hother (List.mem_append_right front hc)
  owned := howned
  used := hused

theorem exists_split {chunks : List Chunk} (h : n < chunks.length) :
    ∃ front chunk back, chunks = front ++ chunk :: back ∧ front.length = n := by
  refine ⟨chunks.take n, chunks[n], chunks.drop (n + 1), ?_, ?_⟩
  · rw [List.getElem_cons_drop, List.take_append_drop]
  · rw [List.length_take]
    omega

theorem Sound.ptr_not_mem (h : Sound ⟨⟨n, front ++ chunk :: back⟩, memory⟩) {place : Nat}
    (hplace : chunk.ptr = some place) : place ∉ ptrs (front ++ back) := by
  have hdistinct : (ptrs (front ++ chunk :: back)).Nodup := h.distinct
  have hcons : ptrs (chunk :: back) = place :: ptrs back := by simp [ptrs, hplace]
  rw [ptrs_append, hcons, List.nodup_middle, List.nodup_cons] at hdistinct
  rw [ptrs_append]
  exact hdistinct.1

theorem Sound.mem_blocks (h : Sound element) {place : Nat}
    (hplace : place ∈ ptrs element.bytes.chunks) : place < element.memory.blocks.length := by
  obtain ⟨chunk, hchunk, hptr⟩ := mem_ptrs.mp hplace
  obtain ⟨block, hblock, -⟩ := h.live chunk hchunk place hptr
  exact lt_of_get hblock

end Ownership

/-! ### Memory -/

section Memory

variable {memory : BlockMemory} {block : List UInt8} {place offset size : Nat}

/-- No allocation fails, nor has one failed that left a chunk without its block. -/
structure Ample (element : DynamicElement) : Prop where
  fails : element.memory.fails = []
  whole : ∀ chunk ∈ element.bytes.chunks, chunk.ptr = none → chunk.allocatedLength = 0

theorem fresh_ample (uninitialised : Nat → Nat → UInt8) : Ample (fresh [] uninitialised) :=
  ⟨rfl, fun chunk hchunk => by cases hchunk⟩

theorem Ample.replace {front back : List Chunk} {chunk chunk' : Chunk} {memory' : BlockMemory}
    {n n' : Nat} (h : Ample ⟨⟨n, front ++ chunk :: back⟩, memory⟩) (hfails : memory'.fails = [])
    (hwhole : chunk'.ptr = none → chunk'.allocatedLength = 0) :
    Ample ⟨⟨n', front ++ chunk' :: back⟩, memory'⟩ := by
  refine ⟨hfails, fun c hc => ?_⟩
  rcases List.mem_append.mp hc with hc | hc
  · exact h.whole c (List.mem_append_left _ hc)
  · rcases List.mem_cons.mp hc with rfl | hc
    · exact hwhole
    · exact h.whole c (List.mem_append_right _ (List.mem_cons_of_mem _ hc))

theorem Ample.moreChunks {chunks : List Chunk} {n : Nat} (h : Ample ⟨⟨n, chunks⟩, memory⟩)
    (k : Nat) :
    Ample ⟨⟨n, chunks ++ List.replicate k .empty⟩, { memory with fails := memory.fails.tail }⟩ := by
  have hfails : memory.fails = [] := h.fails
  refine ⟨by simp [hfails], fun c hc => ?_⟩
  rcases List.mem_append.mp hc with hc | hc
  · exact h.whole c hc
  · rw [List.eq_of_mem_replicate hc]
    exact fun _ => rfl

theorem allocateMemory_cases (memory : BlockMemory) (size : Nat) :
    (memory.allocateMemory size = (none, { memory with fails := memory.fails.tail }) ∧
        memory.fails ≠ []) ∨
      ∃ block, block.length = size ∧ memory.allocateMemory size =
        (some memory.blocks.length,
          { memory with blocks := alloc memory.blocks block, fails := memory.fails.tail }) := by
  unfold BlockMemory.allocateMemory
  split
  next hfails =>
    refine .inl ⟨rfl, fun hnil => ?_⟩
    rw [hnil] at hfails
    cases hfails
  next => exact .inr ⟨_, by simp, rfl⟩

theorem write_eq {bytes : List UInt8} (hblock : get memory.blocks place = some block)
    (hroom : offset + bytes.length ≤ block.length) :
    ∃ memory', memory.write (some place) offset bytes = some memory' ∧
      get memory'.blocks place = some (writeBytes block offset bytes) ∧
      (∀ other, other ≠ place → get memory'.blocks other = get memory.blocks other) ∧
      memory'.fails = memory.fails := by
  by_cases hbytes : bytes = []
  · subst hbytes
    refine ⟨memory, rfl, ?_, fun _ _ => rfl, rfl⟩
    rw [hblock]
    simp [writeBytes]
  · refine ⟨{ memory with blocks := put memory.blocks place (writeBytes block offset bytes) },
      ?_, get_put_self hblock _, fun other hother => get_put_of_ne hother.symm _, rfl⟩
    simp [BlockMemory.write, hbytes, hblock, hroom]

theorem freeMemory_eq (hblock : get memory.blocks place = some block) :
    memory.freeMemory (some place) =
      some { memory with blocks := free memory.blocks place } := by
  simp [BlockMemory.freeMemory, hblock]

end Memory

/-! ### Handing out a chunk -/

section Callback

variable {element : DynamicElement} {front back : List Chunk} {chunk : Chunk}
  {memory : BlockMemory} {n : Nat}

/-- The size of the chunk that OCI is given next. -/
def offered (element : DynamicElement) : Nat :=
  ((element.bytes.chunks[element.bytes.numChunks]?).bind fun chunk =>
    chunk.ptr.map fun _ => chunk.allocatedLength).getD DpiVar.dynamicBytesChunkSize

theorem allocateChunks_of_full
    (hfull : element.bytes.numChunks = element.bytes.chunks.length) :
    (element.allocateChunks = (false, { element with
        memory := { element.memory with fails := element.memory.fails.tail } }) ∧
      element.memory.fails ≠ []) ∨
    element.allocateChunks = (true, ⟨⟨element.bytes.numChunks,
      element.bytes.chunks ++ List.replicate 8 .empty⟩,
      { element.memory with fails := element.memory.fails.tail }⟩) := by
  unfold DynamicElement.allocateChunks
  cases hfails : element.memory.fails.headD false with
  | true =>
    left
    refine ⟨rfl, fun hnil => ?_⟩
    rw [hnil] at hfails
    cases hfails
  | false =>
    right
    have hkept : element.bytes.chunks.take element.bytes.numChunks = element.bytes.chunks :=
      List.take_of_length_le (Nat.le_of_eq hfull.symm)
    simp [hkept]

/-- What is true of the blocks does not depend on the allocations to come. -/
theorem Sound.setFails (h : Sound element) (fails : List Bool) :
    Sound { element with memory := { element.memory with fails } } :=
  ⟨h.numChunks_le, h.distinct, h.live, h.owned, h.used⟩

theorem Sound.moreChunks (h : Sound ⟨⟨n, front⟩, memory⟩) (k : Nat) :
    Sound ⟨⟨n, front ++ List.replicate k .empty⟩, memory⟩ where
  numChunks_le := by
    have hle : n ≤ front.length := h.numChunks_le
    change n ≤ (front ++ List.replicate k Chunk.empty).length
    rw [List.length_append]
    omega
  distinct := by
    have : (ptrs front).Nodup := h.distinct
    simpa using this
  live := by
    intro c hc place hplace
    rcases List.mem_append.mp hc with hc | hc
    · exact h.live c hc place hplace
    · rw [List.eq_of_mem_replicate hc] at hplace
      cases hplace
  owned := by
    intro place block hblock
    have : place ∈ ptrs front := h.owned place block hblock
    simpa using this
  used := by
    intro c hc
    have hle : n ≤ front.length := h.numChunks_le
    rw [List.take_append_of_le_length hle] at hc
    exact h.used c hc

theorem room_spec (h : Sound element) :
    ∃ succeeded element', (if element.bytes.numChunks = element.bytes.chunks.length then
        element.allocateChunks else (true, element)) = (succeeded, element') ∧
      Sound element' ∧ contents element' = contents element ∧
      (succeeded = true → element'.bytes.numChunks < element'.bytes.chunks.length ∧
        offered element' = offered element) ∧
      (Ample element → succeeded = true ∧ Ample element') := by
  split
  next hfull =>
    rcases allocateChunks_of_full hfull with ⟨heq, hample⟩ | heq
    · exact ⟨_, _, heq, h.setFails _, rfl, fun hfalse => (by cases hfalse),
        fun ha => absurd ha.fails hample⟩
    · refine ⟨_, _, heq, (h.setFails _).moreChunks 8, ?_, fun _ => ⟨?_, ?_⟩,
        fun ha => ⟨rfl, ha.moreChunks 8⟩⟩
      · simp only [contents]
        rw [List.take_append_of_le_length (Nat.le_of_eq hfull)]
        rfl
      · simp [hfull]
      · have hnone : element.bytes.chunks[element.bytes.numChunks]? = none :=
          List.getElem?_eq_none (Nat.le_of_eq hfull.symm)
        have hempty : (element.bytes.chunks ++ List.replicate 8 Chunk.empty)[
            element.bytes.numChunks]? = some .empty := by
          rw [hfull, List.getElem?_append_right (Nat.le_refl _)]
          simp
        simp only [offered, hempty, hnone]
        rfl
  next hroom =>
    exact ⟨_, _, rfl, h, rfl,
      fun _ => ⟨Nat.lt_of_le_of_ne h.numChunks_le hroom, rfl⟩, fun ha => ⟨rfl, ha⟩⟩

/-- A chunk of this size has been handed out, and is not counted as filled yet. -/
structure Handed (size : Nat) (before after : DynamicElement) (front back : List Chunk)
    (chunk : Chunk) (place : Nat) : Prop where
  bytes : after.bytes = ⟨front.length + 1, front ++ chunk :: back⟩
  ptr : chunk.ptr = some place
  allocatedLength : chunk.allocatedLength = size
  sound : Sound ⟨⟨front.length, front ++ chunk :: back⟩, after.memory⟩
  contents : front.flatMap (chunkBytes after.memory) = contents before

theorem contents_split (n : Nat) (hn : front.length = n) :
    contents ⟨⟨n, front ++ chunk :: back⟩, memory⟩ = front.flatMap (chunkBytes memory) := by
  simp only [contents]
  rw [List.take_left' hn]

theorem Sound.newBlock {block : List UInt8}
    (h : Sound ⟨⟨front.length, front ++ chunk :: back⟩, memory⟩) (hptr : chunk.ptr = none)
    (chunk' : Chunk) (hptr' : chunk'.ptr = some memory.blocks.length)
    (hlength : chunk'.allocatedLength = block.length) (fails : List Bool) :
    Sound ⟨⟨front.length, front ++ chunk' :: back⟩,
      { memory with blocks := alloc memory.blocks block, fails }⟩ := by
  have hother : ∀ place ∈ ptrs (front ++ back), place ≠ memory.blocks.length := by
    intro place hplace heq
    have hmem : place ∈ ptrs (front ++ chunk :: back) := by
      simp only [ptrs, List.filterMap_append, List.filterMap_cons, hptr] at hplace ⊢
      exact hplace
    have := h.mem_blocks hmem
    simp only [] at this
    omega
  refine h.replace ?_ ?_ ?_ (by simp) ?_
  · intro place hplace
    exact get_alloc_of_ne (hother place hplace)
  · intro place hplace
    obtain rfl : memory.blocks.length = place := Option.some.inj (hptr'.symm.trans hplace)
    exact ⟨fun hmem => hother _ hmem rfl, block, get_alloc_self _ _, hlength.symm⟩
  · intro place block' hblock
    by_cases heq : place = memory.blocks.length
    · exact mem_ptrs.mpr ⟨chunk', by simp, heq ▸ hptr'⟩
    · rw [get_alloc_of_ne heq] at hblock
      have hmem : place ∈ ptrs (front ++ chunk :: back) := h.owned place block' hblock
      simp only [ptrs, List.filterMap_append, List.filterMap_cons, hptr, hptr', List.mem_append,
        List.mem_cons] at hmem ⊢
      tauto
  · intro c hc
    rw [List.take_left' rfl] at hc
    refine h.used c ?_
    simp only []
    rw [List.take_left' rfl]
    exact hc

theorem Sound.noBlock (h : Sound ⟨⟨front.length, front ++ chunk :: back⟩, memory⟩)
    (hptr : chunk.ptr = none) (chunk' : Chunk) (hptr' : chunk'.ptr = none) :
    Sound ⟨⟨front.length, front ++ chunk' :: back⟩, memory⟩ := by
  refine h.replace (fun _ _ => rfl) ?_ ?_ (by simp) ?_
  · intro place hplace
    rw [hptr'] at hplace
    cases hplace
  · intro place block hblock
    have hmem : place ∈ ptrs (front ++ chunk :: back) := h.owned place block hblock
    simp only [ptrs, List.filterMap_append, List.filterMap_cons, hptr, hptr'] at hmem ⊢
    exact hmem
  · intro c hc
    rw [List.take_left' rfl] at hc
    exact h.used c (by rw [List.take_left' rfl]; exact hc)

theorem Sound.setLength (h : Sound ⟨⟨front.length, front ++ chunk :: back⟩, memory⟩)
    (length : Nat) :
    Sound ⟨⟨front.length, front ++ { chunk with length } :: back⟩, memory⟩ := by
  refine h.replace (fun _ _ => rfl) ?_ ?_ (by simp) ?_
  · intro place hplace
    exact ⟨h.ptr_not_mem hplace, h.live chunk (by simp) place hplace⟩
  · intro place block hblock
    have hmem : place ∈ ptrs (front ++ chunk :: back) := h.owned place block hblock
    simpa [ptrs] using hmem
  · intro c hc
    rw [List.take_left' rfl] at hc
    exact h.used c (by rw [List.take_left' rfl]; exact hc)

theorem offered_split : offered ⟨⟨front.length, front ++ chunk :: back⟩, memory⟩ =
    (chunk.ptr.map fun _ => chunk.allocatedLength).getD DpiVar.dynamicBytesChunkSize := by
  simp [offered]

theorem defineCallback_spec (h : Sound element) :
    ∃ succeeded element', element.defineCallback = some (succeeded, element') ∧
      (succeeded = false → Sound element' ∧ contents element' = contents element) ∧
      (succeeded = true → ∃ front back chunk place,
        Handed (offered element) element element' front back chunk place) ∧
      (Ample element → succeeded = true ∧ Ample element') := by
  obtain ⟨succeeded, roomy, hroom, hsound, hcontents, hlt, hample⟩ := room_spec h
  unfold DynamicElement.defineCallback
  rw [hroom]
  cases succeeded with
  | false =>
      exact ⟨false, roomy, rfl, fun _ => ⟨hsound, hcontents⟩, fun hfalse => (by cases hfalse),
        hample⟩
  | true =>
      obtain ⟨hnum, hoffered⟩ := hlt rfl
      obtain ⟨⟨n, chunks⟩, memory⟩ := roomy
      obtain ⟨front, chunk, back, rfl, rfl⟩ := exists_split hnum
      have hget : (front ++ chunk :: back)[front.length]? = some chunk := by simp
      have hset : ∀ c, (front ++ chunk :: back).set front.length c = front ++ c :: back := by
        intro c
        rw [List.set_append_right _ _ (Nat.le_refl _), Nat.sub_self, List.set_cons_zero]
      rw [offered_split] at hoffered
      rw [contents_split _ rfl] at hcontents
      rw [← hoffered, ← hcontents]
      simp only [Bool.true_eq_false, if_false, hget, Option.bind_eq_bind, Option.bind_some]
      cases hptr : chunk.ptr with
      | none =>
          rcases allocateMemory_cases memory DpiVar.dynamicBytesChunkSize with
            ⟨heq, hno⟩ | ⟨block, hlength, heq⟩
          · refine ⟨false, ⟨⟨front.length, front ++ { chunk with
              ptr := none, allocatedLength := DpiVar.dynamicBytesChunkSize } :: back⟩,
              { memory with fails := memory.fails.tail }⟩, ?_, ?_, fun hfalse => (by cases hfalse),
              fun ha => absurd (hample ha).2.fails hno⟩
            · simp [heq, DynamicElement.setChunk, hset]
            · intro _
              exact ⟨(hsound.noBlock hptr _ rfl).setFails _, contents_split _ rfl⟩
          · have hnew := hsound.newBlock hptr
              ⟨some memory.blocks.length, DpiVar.dynamicBytesChunkSize,
                DpiVar.dynamicBytesChunkSize⟩ rfl hlength.symm memory.fails.tail
            refine ⟨true, ⟨⟨front.length + 1, front ++ ⟨some memory.blocks.length,
              DpiVar.dynamicBytesChunkSize, DpiVar.dynamicBytesChunkSize⟩ :: back⟩,
              { memory with blocks := alloc memory.blocks block, fails := memory.fails.tail }⟩,
              ?_, fun hfalse => (by cases hfalse), fun _ => ?_, fun ha => ⟨rfl, ?_⟩⟩
            · simp [heq, DynamicElement.setChunk, hset]
            · refine ⟨front, back, _, memory.blocks.length, rfl, rfl, rfl, hnew, ?_⟩
              rw [← hcontents]
              apply flatMap_chunkBytes_congr
              intro place hplace
              have hlt : place < memory.blocks.length := hsound.mem_blocks (by simp [hplace])
              exact get_alloc_of_ne (Nat.ne_of_lt hlt)
            · have hfails : memory.fails = [] := (hample ha).2.fails
              exact (hample ha).2.replace (by simp [hfails]) fun hnone => (by cases hnone)
      | some place =>
          refine ⟨true, ⟨⟨front.length + 1, front ++ { chunk with
            length := chunk.allocatedLength } :: back⟩, memory⟩, ?_,
            fun hfalse => (by cases hfalse), fun _ => ?_, fun ha => ⟨rfl, ?_⟩⟩
          · simp [hptr, DynamicElement.setChunk, hset]
          · exact ⟨front, back, _, place, rfl, hptr, rfl, hsound.setLength _, hcontents⟩
          · exact (hample ha).2.replace (hample ha).2.fails ((hample ha).2.whole chunk (by simp))

/-- Bytes that fit into the first chunk that is not in use are put into it, and it is
counted.  Without a block there is only room for no bytes. -/
theorem Sound.fill (h : Sound ⟨⟨front.length, front ++ chunk :: back⟩, memory⟩)
    {piece : List UInt8} (hpiece : piece.length ≤ chunk.allocatedLength)
    (hnull : chunk.ptr = none → piece = []) :
    ∃ memory', memory.write chunk.ptr 0 piece = some memory' ∧
      Sound ⟨⟨front.length + 1, front ++ { chunk with length := piece.length } :: back⟩,
        memory'⟩ ∧
      contents ⟨⟨front.length + 1, front ++ { chunk with length := piece.length } :: back⟩,
        memory'⟩ = front.flatMap (chunkBytes memory) ++ piece ∧
      memory'.fails = memory.fails := by
  have htake : (front ++ { chunk with length := piece.length } :: back).take
      (front.length + 1) = front ++ [{ chunk with length := piece.length }] := by
    simp [List.take_append]
  have hused : ∀ c ∈ (front ++ { chunk with length := piece.length } :: back).take
      (front.length + 1), c.length ≤ c.allocatedLength ∧ (c.ptr = none → c.length = 0) := by
    intro c hc
    rw [htake] at hc
    rcases List.mem_append.mp hc with hc | hc
    · exact h.used c (by rw [List.take_left' rfl]; exact hc)
    · obtain rfl := List.mem_singleton.mp hc
      exact ⟨hpiece, fun hnone => List.length_eq_zero_iff.mpr (hnull hnone)⟩
  have hmem : ∀ {place block}, get memory.blocks place = some block →
      place ∈ ptrs (front ++ { chunk with length := piece.length } :: back) := by
    intro place block hblock
    have hmem : place ∈ ptrs (front ++ chunk :: back) := h.owned place block hblock
    simpa [ptrs] using hmem
  rcases Option.eq_none_or_eq_some chunk.ptr with hptr | ⟨place, hptr⟩
  · obtain rfl := hnull hptr
    refine ⟨memory, rfl, ?_, ?_, rfl⟩
    · refine h.replace (fun _ _ => rfl) ?_ (fun place block => hmem) (by simp) hused
      intro place hplace
      cases hptr.symm.trans hplace
    · simp only [contents, htake]
      simp [chunkBytes]
  · obtain ⟨block, hblock, hlength⟩ := h.live chunk (by simp) place hptr
    have hroom : 0 + piece.length ≤ block.length := by omega
    obtain ⟨memory', hwrite, hwritten, hothers, hfails⟩ := write_eq hblock hroom
    have hnot := h.ptr_not_mem hptr
    have hkeep : ∀ other ∈ ptrs (front ++ back),
        get memory'.blocks other = get memory.blocks other := fun other hother =>
      hothers other fun heq => hnot (heq ▸ hother)
    refine ⟨memory', hptr ▸ hwrite, ?_, ?_, hfails⟩
    · refine h.replace hkeep ?_ ?_ (by simp) hused
      · intro other hother
        obtain rfl : place = other := Option.some.inj (hptr.symm.trans hother)
        exact ⟨hnot, _, hwritten, by rw [length_write hroom, hlength]⟩
      · intro other other_block hother
        by_cases heq : other = place
        · exact heq ▸ hmem hblock
        · rw [hothers other heq] at hother
          exact hmem hother
    · have hfront : front.flatMap (chunkBytes memory') = front.flatMap (chunkBytes memory) :=
        flatMap_chunkBytes_congr fun other hother => hkeep other (by simp [hother])
      have hpiece' : chunkBytes memory' { chunk with length := piece.length } = piece := by
        simp [chunkBytes, hptr, hwritten, writeBytes]
      simp only [contents, htake]
      rw [List.flatMap_append, hfront]
      simp [hpiece']

theorem deliverPiece_spec (h : Sound element) {piece : List UInt8}
    (hpiece : piece.length ≤ offered element) :
    ∃ succeeded element', element.deliverPiece piece = some (succeeded, element') ∧
      Sound element' ∧
      contents element' = contents element ++ (if succeeded then piece else []) ∧
      (Ample element → succeeded = true ∧ Ample element') := by
  obtain ⟨succeeded, after, hcall, hfailed, hhanded, hample⟩ := defineCallback_spec h
  unfold DynamicElement.deliverPiece
  rw [hcall]
  cases succeeded with
  | false =>
      obtain ⟨hsound, hcontents⟩ := hfailed rfl
      exact ⟨false, after, rfl, hsound, by simpa using hcontents, hample⟩
  | true =>
      obtain ⟨front, back, chunk, place, hbytes, hptr, hallocated, hsound, hcontents⟩ :=
        hhanded rfl
      obtain ⟨bytes, memory⟩ := after
      obtain rfl : bytes = ⟨front.length + 1, front ++ chunk :: back⟩ := hbytes
      obtain ⟨memory', hwrite, hsound', hcontents', hfails⟩ :=
        hsound.fill (hallocated ▸ hpiece) fun hnone => by
          rw [hptr] at hnone
          cases hnone
      refine ⟨true, _, ?_, hsound', ?_, fun ha => ⟨rfl, ?_⟩⟩
      · simp [hwrite, DynamicElement.setChunk]
      · rw [hcontents', hcontents]
        rfl
      · have hample' := (hample ha).2
        exact hample'.replace (hfails.trans hample'.fails) (hample'.whole chunk (by simp))

end Callback

/-! ### Reading the value -/

section Reading

variable {element : DynamicElement} {memory : BlockMemory} {chunks : List Chunk}

/-- The chunk can be read to its length. -/
def Readable (memory : BlockMemory) (chunk : Chunk) : Prop :=
  (chunk.ptr = none → chunk.length = 0) ∧
    ∀ place, chunk.ptr = some place →
      ∃ block, get memory.blocks place = some block ∧ chunk.length ≤ block.length

theorem Readable.read {chunk : Chunk} (h : Readable memory chunk) :
    memory.read chunk.ptr chunk.length = some (chunkBytes memory chunk) ∧
      (chunkBytes memory chunk).length = chunk.length := by
  by_cases hzero : chunk.length = 0
  · simp [BlockMemory.read, chunkBytes, hzero]
  · cases hptr : chunk.ptr with
    | none => exact absurd (h.1 hptr) hzero
    | some place =>
        obtain ⟨block, hblock, hle⟩ := h.2 place hptr
        simp [BlockMemory.read, chunkBytes, hzero, hptr, hblock, hle]

theorem Sound.readable (h : Sound element) :
    ∀ chunk ∈ element.bytes.chunks.take element.bytes.numChunks,
      Readable element.memory chunk := by
  intro chunk hchunk
  obtain ⟨hle, hnull⟩ := h.used chunk hchunk
  refine ⟨hnull, fun place hplace => ?_⟩
  obtain ⟨block, hblock, hlength⟩ := h.live chunk (List.mem_of_mem_take hchunk) place hplace
  exact ⟨block, hblock, hlength ▸ hle⟩

theorem free_ptr (memory : BlockMemory) (chunk : Chunk) (h : ∀ place, chunk.ptr = some place →
      ∃ block, get memory.blocks place = some block) :
    ∃ memory', memory.freeMemory chunk.ptr = some memory' ∧
      (∀ place, chunk.ptr = some place → get memory'.blocks place = none) ∧
      (∀ place, chunk.ptr ≠ some place →
        get memory'.blocks place = get memory.blocks place) ∧
      memory'.fails = memory.fails := by
  cases hptr : chunk.ptr with
  | none =>
      exact ⟨memory, rfl, fun place hplace => (by cases hplace), fun _ _ => rfl, rfl⟩
  | some place =>
      obtain ⟨block, hblock⟩ := h place hptr
      refine ⟨_, freeMemory_eq hblock, ?_, ?_, rfl⟩
      · intro other hother
        obtain rfl : place = other := Option.some.inj hother
        exact get_free _ _
      · intro other hother
        exact get_free_of_ne fun heq => hother (heq ▸ rfl)

theorem take_writeBytes {block bytes : List UInt8} {offset : Nat}
    (hroom : offset + bytes.length ≤ block.length) :
    (writeBytes block offset bytes).take (offset + bytes.length) =
      block.take offset ++ bytes := by
  have hlength : (block.take offset).length = offset := by
    rw [List.length_take]
    omega
  rw [writeBytes, ← List.append_assoc]
  exact List.take_left' (by rw [List.length_append, hlength])

/-- The loop appends the chunks to what is in the target, and frees them. -/
theorem consolidate_spec {target : Nat} {block : List UInt8} {offset : Nat}
    (hdistinct : (ptrs chunks).Nodup) (htarget : target ∉ ptrs chunks)
    (hreadable : ∀ chunk ∈ chunks, Readable memory chunk)
    (hblock : get memory.blocks target = some block)
    (hroom : offset + (chunks.map (·.length)).sum ≤ block.length) :
    ∃ memory' block', DynamicElement.consolidate target offset chunks memory =
        some (offset + (chunks.map (·.length)).sum, memory') ∧
      get memory'.blocks target = some block' ∧ block'.length = block.length ∧
      block'.take (offset + (chunks.map (·.length)).sum) =
        block.take offset ++ chunks.flatMap (chunkBytes memory) ∧
      (∀ place ∈ ptrs chunks, get memory'.blocks place = none) ∧
      (∀ place, place ≠ target → place ∉ ptrs chunks →
        get memory'.blocks place = get memory.blocks place) ∧
      memory'.fails = memory.fails := by
  induction chunks generalizing memory block offset with
  | nil =>
      refine ⟨memory, block, rfl, hblock, rfl, by simp, ?_, fun _ _ _ => rfl, rfl⟩
      intro place hplace
      cases hplace
  | cons chunk chunks ih =>
      simp only [List.map_cons, List.sum_cons] at hroom ⊢
      have hchunk := hreadable chunk List.mem_cons_self
      obtain ⟨hread, hlength⟩ := hchunk.read
      have hfit : offset + (chunkBytes memory chunk).length ≤ block.length := by omega
      obtain ⟨written, hwrite, hwritten, hwothers, hwfails⟩ := write_eq hblock hfit
      have hptr_ne : ∀ place, chunk.ptr = some place → place ≠ target := by
        rintro place hplace rfl
        exact htarget (mem_ptrs.mpr ⟨chunk, List.mem_cons_self, hplace⟩)
      obtain ⟨freed, hfree, hgone, hfothers, hffails⟩ :=
        free_ptr written chunk fun place hplace => by
          obtain ⟨b, hb, -⟩ := hchunk.2 place hplace
          exact ⟨b, by rw [hwothers place (hptr_ne place hplace), hb]⟩
      have hsub : ∀ place, place ∈ ptrs chunks → place ∈ ptrs (chunk :: chunks) := by
        intro place hplace
        obtain ⟨c, hc, hcp⟩ := mem_ptrs.mp hplace
        exact mem_ptrs.mpr ⟨c, List.mem_cons_of_mem chunk hc, hcp⟩
      -- the first chunk shares no block with the rest
      have hfirst : ∀ place ∈ ptrs chunks, chunk.ptr ≠ some place := by
        intro place hplace hptr
        have hcons : ptrs (chunk :: chunks) = place :: ptrs chunks := by simp [ptrs, hptr]
        rw [hcons, List.nodup_cons] at hdistinct
        exact hdistinct.1 hplace
      have hrest : ∀ place ∈ ptrs chunks,
          get freed.blocks place = get memory.blocks place := by
        intro place hplace
        rw [hfothers place (hfirst place hplace), hwothers place]
        rintro rfl
        exact htarget (hsub _ hplace)
      have htarget' : get freed.blocks target = some (writeBytes block offset
          (chunkBytes memory chunk)) := by
        rw [hfothers target fun hptr => hptr_ne target hptr rfl, hwritten]
      have hdistinct' : (ptrs chunks).Nodup :=
        hdistinct.sublist (List.Sublist.filterMap Chunk.ptr (List.sublist_cons_self _ _))
      have hreadable' : ∀ c ∈ chunks, Readable freed c := by
        intro c hc
        obtain ⟨hnull, hlive⟩ := hreadable c (List.mem_cons_of_mem chunk hc)
        refine ⟨hnull, fun place hplace => ?_⟩
        rw [hrest place (mem_ptrs.mpr ⟨c, hc, hplace⟩)]
        exact hlive place hplace
      have hroom' : offset + chunk.length + (chunks.map (·.length)).sum ≤
          (writeBytes block offset (chunkBytes memory chunk)).length := by
        rw [length_write hfit]
        omega
      obtain ⟨memory', block', hloop, hget, hblock', htake, hnone, hothers, hfails⟩ :=
        ih hdistinct' (fun hmem => htarget (hsub _ hmem)) hreadable' htarget' hroom'
      have hsum : offset + chunk.length + (chunks.map (·.length)).sum =
          offset + (chunk.length + (chunks.map (·.length)).sum) := by omega
      refine ⟨memory', block', ?_, hget, hblock'.trans (length_write hfit), ?_, ?_, ?_,
        hfails.trans (hffails.trans hwfails)⟩
      · rw [← hsum, ← hloop]
        simp [DynamicElement.consolidate, hread, hwrite, hfree]
      · have hbytes : chunks.flatMap (chunkBytes freed) = chunks.flatMap (chunkBytes memory) :=
          flatMap_chunkBytes_congr hrest
        have hstart := take_writeBytes hfit
        rw [hlength] at hstart
        rw [← hsum, htake, hbytes, hstart, List.flatMap_cons, List.append_assoc]
      · intro place hplace
        by_cases hmem : place ∈ ptrs chunks
        · exact hnone place hmem
        · obtain ⟨c, hc, hcp⟩ := mem_ptrs.mp hplace
          rcases List.mem_cons.mp hc with rfl | hc
          · rw [hothers place (hptr_ne place hcp) hmem, hgone place hcp]
          · exact absurd (mem_ptrs.mpr ⟨c, hc, hcp⟩) hmem
      · intro place hne hplace
        have hmem : place ∉ ptrs chunks := fun hmem => hplace (hsub _ hmem)
        have hptr : chunk.ptr ≠ some place := fun hptr =>
          hplace (mem_ptrs.mpr ⟨chunk, List.mem_cons_self, hptr⟩)
        rw [hothers place hne hmem, hfothers place hptr, hwothers place hne]

theorem Sound.length_le (h : Sound element) :
    ((element.bytes.chunks.take element.bytes.numChunks).map (·.length)).sum ≤
      ((element.bytes.chunks.take element.bytes.numChunks).map (·.allocatedLength)).sum :=
  List.sum_le_sum fun chunk hchunk => (h.used chunk hchunk).1

/-- `totalAllocatedLength` of `dpiVar__setBytesFromDynamicBytes` -/
def totalAllocatedLength (element : DynamicElement) : Nat :=
  ((element.bytes.chunks.take element.bytes.numChunks).map (·.allocatedLength)).sum

theorem Sound.consolidated {used rest : List Chunk} {n : Nat} {memory' : BlockMemory}
    {block : List UInt8} {target length : Nat} (h : Sound ⟨⟨n, used ++ rest⟩, memory⟩)
    (hfresh : get memory.blocks target = none) (htarget : get memory'.blocks target = some block)
    (hnone : ∀ place ∈ ptrs used, get memory'.blocks place = none)
    (hothers : ∀ place, place ≠ target → place ∉ ptrs used →
      get memory'.blocks place = get memory.blocks place)
    (hlength : length ≤ block.length) (k : Nat) :
    Sound ⟨⟨1, ⟨some target, length, block.length⟩ :: (List.replicate k .empty ++ rest)⟩,
      memory'⟩ := by
  have hdistinct : (ptrs used ++ ptrs rest).Nodup := by
    rw [← ptrs_append]
    exact h.distinct
  have hptrs : ptrs (⟨some target, length, block.length⟩ ::
      (List.replicate k Chunk.empty ++ rest)) = target :: ptrs rest := by
    rw [← List.nil_append (ptrs rest), ← ptrs_replicate_empty k, ← ptrs_append]
    rfl
  have hrest_live : ∀ chunk ∈ rest, ∀ place, chunk.ptr = some place → place ≠ target ∧
      get memory'.blocks place = get memory.blocks place := by
    intro chunk hchunk place hplace
    obtain ⟨b, hb, -⟩ := h.live chunk (List.mem_append_right used hchunk) place hplace
    have hne : place ≠ target := by
      rintro rfl
      rw [hfresh] at hb
      cases hb
    refine ⟨hne, hothers place hne fun hused => ?_⟩
    exact (List.nodup_append.mp hdistinct).2.2 place hused place
      (mem_ptrs.mpr ⟨chunk, hchunk, hplace⟩) rfl
  constructor
  · simp
  · rw [hptrs, List.nodup_cons]
    refine ⟨fun hmem => ?_, (List.nodup_append.mp hdistinct).2.1⟩
    obtain ⟨chunk, hchunk, hplace⟩ := mem_ptrs.mp hmem
    exact (hrest_live chunk hchunk target hplace).1 rfl
  · intro chunk hchunk place hplace
    rcases List.mem_cons.mp hchunk with rfl | hchunk
    · obtain rfl : target = place := Option.some.inj hplace
      exact ⟨block, htarget, rfl⟩
    · rcases List.mem_append.mp hchunk with hchunk | hchunk
      · rw [List.eq_of_mem_replicate hchunk] at hplace
        cases hplace
      · rw [(hrest_live chunk hchunk place hplace).2]
        exact h.live chunk (List.mem_append_right used hchunk) place hplace
  · intro place b hb
    rw [hptrs]
    by_cases hne : place = target
    · exact hne ▸ List.mem_cons_self
    · by_cases hused : place ∈ ptrs used
      · rw [hnone place hused] at hb
        cases hb
      · rw [hothers place hne hused] at hb
        have hmem : place ∈ ptrs (used ++ rest) := h.owned place b hb
        rw [ptrs_append, List.mem_append] at hmem
        exact List.mem_cons_of_mem target (hmem.resolve_left hused)
  · intro chunk hchunk
    obtain rfl := List.mem_singleton.mp hchunk
    exact ⟨hlength, fun hnull => by cases hnull⟩

theorem consolidation_spec {used rest : List Chunk}
    (h : Sound ⟨⟨used.length, used ++ rest⟩, memory⟩) (hpos : 0 < used.length)
    (hone : used.length ≠ 1)
    (htotal : (used.map (·.allocatedLength)).sum < DynamicElement.uint32Size) :
    ∃ result element',
      DynamicElement.setBytesFromDynamicBytes ⟨⟨used.length, used ++ rest⟩, memory⟩ =
        some (result, element') ∧
      Sound element' ∧ contents element' = used.flatMap (chunkBytes memory) ∧
      (∀ bytes, result = some bytes → bytes = used.flatMap (chunkBytes memory)) ∧
      (Ample ⟨⟨used.length, used ++ rest⟩, memory⟩ → result.isSome = true ∧ Ample element') := by
  have htakeUsed : (used ++ rest).take used.length = used := List.take_left' rfl
  have hdropUsed : (used ++ rest).drop used.length = rest := List.drop_left' rfl
  have hreadable := h.readable
  have hlengths := h.length_le
  have hne : used ++ rest ≠ [] := by
    intro hnil
    rw [(List.append_eq_nil_iff.mp hnil).1] at hpos
    cases hpos
  have hmax : max used.length 1 = used.length := Nat.max_eq_left hpos
  simp only [htakeUsed] at hreadable hlengths
  have hcases := allocateMemory_cases memory ((used.map (·.allocatedLength)).sum)
  unfold DynamicElement.setBytesFromDynamicBytes
  simp only [if_neg hone, htakeUsed, Nat.mod_eq_of_lt htotal]
  generalize (used.map (·.allocatedLength)).sum = total at hlengths hcases ⊢
  rcases hcases with ⟨heq, hno⟩ | ⟨block, hblock, heq⟩
  · rw [heq]
    refine ⟨none, _, rfl, h.setFails _, ?_, fun bytes hbytes => (by cases hbytes),
      fun ha => absurd ha.fails hno⟩
    simp only [contents, htakeUsed]
    rfl
  · rw [heq]
    have hplace : ∀ place ∈ ptrs used, place < memory.blocks.length := by
      intro place hplace
      exact h.mem_blocks (by simp [hplace])
    have hkeep : ∀ place, place ≠ memory.blocks.length →
        get (alloc memory.blocks block) place = get memory.blocks place := fun place hne =>
      get_alloc_of_ne hne
    have hdistinct : (ptrs used).Nodup := by
      have hall : (ptrs (used ++ rest)).Nodup := h.distinct
      rw [ptrs_append] at hall
      exact (List.nodup_append.mp hall).1
    have hreadable' : ∀ chunk ∈ used, Readable
        { memory with blocks := alloc memory.blocks block, fails := memory.fails.tail }
        chunk := by
      intro chunk hchunk
      refine ⟨(hreadable chunk hchunk).1, fun place hptr => ?_⟩
      simp only []
      rw [hkeep place (Nat.ne_of_lt (hplace place (mem_ptrs.mpr ⟨chunk, hchunk, hptr⟩)))]
      exact (hreadable chunk hchunk).2 place hptr
    have hroom : 0 + (used.map (·.length)).sum ≤ block.length := by omega
    have hspec := consolidate_spec hdistinct (fun hmem => Nat.lt_irrefl _ (hplace _ hmem))
      hreadable' (get_alloc_self memory.blocks block) hroom
    rw [Nat.zero_add, List.take_zero, List.nil_append] at hspec
    rw [Nat.zero_add] at hroom
    generalize (used.map (·.length)).sum = length at hspec hroom
    obtain ⟨memory', block', hloop, hget, hblock', htake, hnone, hothers, hfails⟩ := hspec
    have hbytes : used.flatMap (chunkBytes
        { memory with blocks := alloc memory.blocks block, fails := memory.fails.tail }) =
        used.flatMap (chunkBytes memory) :=
      flatMap_chunkBytes_congr fun place hmem => hkeep place (Nat.ne_of_lt (hplace place hmem))
    rw [hbytes] at htake
    have hsound := h.consolidated (get_length _) hget hnone
      (fun place hne hmem => (hothers place hne hmem).trans (hkeep place hne))
      (show length ≤ block'.length by omega) (used.length - 1)
    have hread : memory'.read (some memory.blocks.length) length =
        some (used.flatMap (chunkBytes memory)) := by
      by_cases hzero : length = 0
      · rw [hzero, List.take_zero] at htake
        simp [BlockMemory.read, hzero, ← htake]
      · have hfits : length ≤ block'.length := by omega
        simp [BlockMemory.read, hzero, hget, hfits, htake]
    rw [hblock', hblock] at hsound
    refine ⟨some (used.flatMap (chunkBytes memory)), _, ?_, hsound, ?_, ?_, fun ha => ⟨rfl, ?_⟩⟩
    · simp only [hloop, Option.bind_eq_bind, Option.bind_some, if_neg hne, hmax, hdropUsed, hread]
    · simp only [contents, List.take_succ_cons, List.take_zero, List.flatMap_cons,
        List.flatMap_nil, List.append_nil]
      simp [chunkBytes, hget, htake]
    · rintro bytes ⟨⟩
      rfl
    · have hfails' : memory.fails = [] := ha.fails
      refine ⟨by simp [hfails, hfails'], fun chunk hchunk => ?_⟩
      rcases List.mem_cons.mp hchunk with rfl | hchunk
      · exact fun hnone => (by cases hnone)
      · rcases List.mem_append.mp hchunk with hchunk | hchunk
        · rw [List.eq_of_mem_replicate hchunk]
          exact fun _ => rfl
        · exact ha.whole chunk (List.mem_append_right _ hchunk)

theorem setBytesFromDynamicBytes_spec (h : Sound element) (hpos : 0 < element.bytes.numChunks)
    (htotal : totalAllocatedLength element < DynamicElement.uint32Size) :
    ∃ result element', element.setBytesFromDynamicBytes = some (result, element') ∧
      Sound element' ∧ contents element' = contents element ∧
      (∀ bytes, result = some bytes → bytes = contents element) ∧
      (Ample element → result.isSome = true ∧ Ample element') := by
  obtain ⟨⟨n, chunks⟩, memory⟩ := element
  have hle : n ≤ chunks.length := h.numChunks_le
  have hlength : (chunks.take n).length = n := by
    rw [List.length_take]
    omega
  obtain ⟨used, rest, rfl, rfl⟩ : ∃ used rest, chunks = used ++ rest ∧ used.length = n :=
    ⟨chunks.take n, chunks.drop n, (List.take_append_drop n chunks).symm, hlength⟩
  have htake : (used ++ rest).take used.length = used := List.take_left' rfl
  simp only [totalAllocatedLength, contents, htake] at htotal ⊢
  by_cases hone : used.length = 1
  · obtain ⟨chunk, rfl⟩ := List.length_eq_one_iff.mp hone
    obtain ⟨hread, -⟩ := (h.readable chunk (by simp)).read
    refine ⟨some (chunkBytes memory chunk), _, ?_, h, ?_, ?_, fun ha => ⟨rfl, ha⟩⟩
    · simp only [DynamicElement.setBytesFromDynamicBytes, List.length_singleton, if_true,
        List.singleton_append, List.head?_cons, Option.bind_eq_bind, Option.bind_some]
      rw [show memory.read chunk.ptr chunk.length = _ from hread]
      rfl
    · simp
    · rintro bytes ⟨⟩
      simp
  · exact consolidation_spec h hpos hone htotal

end Reading

/-! ### Setting a value -/

section Setting

variable {element : DynamicElement} {chunk : Chunk} {back : List Chunk} {memory : BlockMemory}

theorem Sound.extendedPreFetch (h : Sound element) : Sound element.extendedPreFetch :=
  ⟨Nat.zero_le _, h.distinct, h.live, h.owned, fun chunk hchunk => by
    rw [DynamicElement.extendedPreFetch, List.take_zero] at hchunk
    cases hchunk⟩

theorem Ample.extendedPreFetch (h : Ample element) : Ample element.extendedPreFetch :=
  ⟨h.fails, h.whole⟩

theorem contents_of_unused (hzero : element.bytes.numChunks = 0) : contents element = [] := by
  rw [contents, hzero, List.take_zero]
  rfl

theorem first_spec (h : Sound element) (hzero : element.bytes.numChunks = 0) :
    ∃ succeeded element', (if element.bytes.chunks.length = 0 then element.allocateChunks
        else (true, element)) = (succeeded, element') ∧
      Sound element' ∧ element'.bytes.numChunks = 0 ∧
      (succeeded = true → ∃ chunk back, element'.bytes.chunks = chunk :: back ∧
        element.bytes.chunks.head?.getD .empty = chunk) ∧
      (Ample element → succeeded = true ∧ Ample element') := by
  split
  next hnone =>
    rcases allocateChunks_of_full (hzero.trans hnone.symm) with ⟨heq, hample⟩ | heq
    · exact ⟨_, _, heq, h.setFails _, hzero, fun hfalse => (by cases hfalse),
        fun ha => absurd ha.fails hample⟩
    · refine ⟨_, _, heq, (h.setFails _).moreChunks 8, hzero, fun _ => ?_,
        fun ha => ⟨rfl, ha.moreChunks 8⟩⟩
      rw [List.length_eq_zero_iff.mp hnone]
      exact ⟨.empty, List.replicate 7 .empty, rfl, rfl⟩
  next hsome =>
    obtain ⟨chunk, back, hchunks⟩ := List.exists_cons_of_length_pos (Nat.pos_of_ne_zero hsome)
    exact ⟨_, _, rfl, h, hzero, fun _ => ⟨chunk, back, hchunks, by rw [hchunks]; rfl⟩,
      fun ha => ⟨rfl, ha⟩⟩

theorem Sound.released (h : Sound ⟨⟨0, chunk :: back⟩, memory⟩) :
    ∃ memory', memory.freeMemory chunk.ptr = some memory' ∧
      Sound ⟨⟨0, { chunk with ptr := none } :: back⟩, memory'⟩ ∧
      memory'.fails = memory.fails := by
  obtain ⟨memory', hfree, hgone, hothers, hfails⟩ :=
    free_ptr memory chunk fun place hplace => by
      obtain ⟨block, hblock, -⟩ := h.live chunk List.mem_cons_self place hplace
      exact ⟨block, hblock⟩
  refine ⟨memory', hfree, ?_, hfails⟩
  have hsplit : Sound ⟨⟨([] : List Chunk).length, [] ++ chunk :: back⟩, memory⟩ := h
  refine hsplit.replace ?_ ?_ ?_ (Nat.zero_le _) ?_
  · intro place hplace
    exact hothers place fun hptr => hsplit.ptr_not_mem hptr hplace
  · intro place hplace
    cases hplace
  · intro place block hblock
    have hptr : chunk.ptr ≠ some place := by
      intro hptr
      rw [hgone place hptr] at hblock
      cases hblock
    rw [hothers place hptr] at hblock
    obtain ⟨c, hc, hplace⟩ := mem_ptrs.mp (h.owned place block hblock)
    rcases List.mem_cons.mp hc with rfl | hc
    · exact absurd hplace hptr
    · exact mem_ptrs.mpr ⟨c, List.mem_cons_of_mem _ hc, hplace⟩
  · intro c hc
    rw [List.take_zero] at hc
    cases hc

theorem le_allocatedLength {size : Nat} (hsize : size + 65535 < DynamicElement.uint32Size) :
    size ≤ DpiVar.allocatedLength size := by
  simp only [DpiVar.allocatedLength, DpiVar.dynamicBytesChunkSize, DynamicElement.uint32Size] at *
  omega

/-- The first chunk has no block, and is taken to be large enough for the value. -/
def Torn (element : DynamicElement) (size : Nat) : Prop :=
  0 < size ∧ (element.bytes.chunks.head?.getD .empty).ptr = none ∧
    size ≤ (element.bytes.chunks.head?.getD .empty).allocatedLength

instance (size : Nat) : Decidable (Torn element size) :=
  inferInstanceAs (Decidable (_ ∧ _ ∧ _))

/-- What `allocateDynamicBytes` leaves: nothing in use, and room for the value. -/
structure Roomy (element : DynamicElement) (size : Nat) (after : DynamicElement) (chunk : Chunk)
    (back : List Chunk) : Prop where
  bytes : after.bytes = ⟨0, chunk :: back⟩
  sound : Sound after
  size_le : size ≤ chunk.allocatedLength
  null_iff : 0 < size → (chunk.ptr = none ↔ Torn element size)

theorem allocateDynamicBytes_spec (h : Sound element) {size : Nat}
    (hsize : size + 65535 < DynamicElement.uint32Size) :
    ∃ succeeded element', element.allocateDynamicBytes size = some (succeeded, element') ∧
      (succeeded = false → Sound element' ∧ element'.bytes.numChunks = 0) ∧
      (succeeded = true → ∃ chunk back, Roomy element size element' chunk back) ∧
      (Ample element → succeeded = true ∧ Ample element') := by
  obtain ⟨succeeded, first, hfirst, hsound, hzero, hhead, hample⟩ :=
    first_spec h.extendedPreFetch rfl
  unfold DynamicElement.allocateDynamicBytes
  replace hample := fun ha : Ample element => hample ha.extendedPreFetch
  rw [DynamicElement.extendedPreFetch] at hfirst hhead
  simp only [hfirst]
  cases succeeded with
  | false =>
      exact ⟨false, first, rfl, fun _ => ⟨hsound, hzero⟩, fun hfalse => (by cases hfalse), hample⟩
  | true =>
      obtain ⟨chunk, back, hchunks, hchunk⟩ := hhead rfl
      obtain ⟨⟨n, chunks⟩, memory⟩ := first
      obtain rfl : n = 0 := hzero
      obtain rfl : chunks = chunk :: back := hchunks
      simp only [Bool.true_eq_false, if_false, List.head?_cons, Option.bind_eq_bind,
        Option.bind_some]
      by_cases hlarge : size > chunk.allocatedLength
      · obtain ⟨freed, hfree, hreleased, hfails⟩ := hsound.released
        have hsound' : Sound ⟨⟨([] : List Chunk).length,
            [] ++ { chunk with ptr := none } :: back⟩, freed⟩ := hreleased
        simp only [if_pos hlarge, hfree, Option.bind_some]
        rcases allocateMemory_cases freed (DpiVar.allocatedLength size) with
          ⟨heq, hno⟩ | ⟨block, hlength, heq⟩
        · refine ⟨false, _, by rw [heq]; rfl, fun _ => ⟨?_, rfl⟩, fun hfalse => (by cases hfalse),
            fun ha => absurd (hfails.trans (hample ha).2.fails) hno⟩
          exact (hsound'.noBlock rfl
            ⟨none, chunk.length, DpiVar.allocatedLength size⟩ rfl).setFails _
        · have hnew := hsound'.newBlock rfl
            ⟨some freed.blocks.length, chunk.length, DpiVar.allocatedLength size⟩ rfl hlength.symm
            freed.fails.tail
          refine ⟨true, _, by rw [heq]; rfl, fun hfalse => (by cases hfalse), fun _ =>
            ⟨_, back, rfl, hnew, le_allocatedLength hsize, fun _ => ?_⟩, fun ha => ⟨rfl, ?_⟩⟩
          · refine ⟨fun hnone => (by cases hnone), fun htorn => ?_⟩
            have hle := htorn.2.2
            rw [hchunk] at hle
            omega
          · have hfails' : freed.fails = [] := hfails.trans (hample ha).2.fails
            have hample' : Ample ⟨⟨0, [] ++ chunk :: back⟩, memory⟩ := (hample ha).2
            exact hample'.replace (by simp [hfails'])
              fun hnone => (by cases hnone)
      · rw [if_neg hlarge]
        have hle : size ≤ chunk.allocatedLength := Nat.le_of_not_gt hlarge
        refine ⟨true, _, rfl, fun hfalse => (by cases hfalse), fun _ =>
          ⟨chunk, back, rfl, hsound, hle, fun hpos => ?_⟩, fun ha => ⟨rfl, (hample ha).2⟩⟩
        rw [Torn, hchunk]
        exact ⟨fun hnone => ⟨hpos, hnone, hle⟩, fun htorn => htorn.2.1⟩

theorem setFromBytes_spec (h : Sound element) {value : List UInt8}
    (hsize : value.length + 65535 < DynamicElement.uint32Size)
    (htorn : ¬ Torn element value.length) :
    ∃ succeeded element', element.setFromBytes value = some (succeeded, element') ∧
      Sound element' ∧ contents element' = (if succeeded then value else []) ∧
      (Ample element → succeeded = true ∧ Ample element') := by
  obtain ⟨succeeded, after, hcall, hfailed, hroomy, hample⟩ := allocateDynamicBytes_spec h hsize
  unfold DynamicElement.setFromBytes
  rw [hcall]
  cases succeeded with
  | false =>
      obtain ⟨hsound, hzero⟩ := hfailed rfl
      exact ⟨false, after, rfl, hsound, contents_of_unused hzero, hample⟩
  | true =>
      obtain ⟨chunk, back, hbytes, hsound, hle, hnull⟩ := hroomy rfl
      obtain ⟨bytes, memory⟩ := after
      obtain rfl : bytes = ⟨0, chunk :: back⟩ := hbytes
      have hsplit : Sound ⟨⟨([] : List Chunk).length, [] ++ chunk :: back⟩, memory⟩ := hsound
      obtain ⟨memory', hwrite, hsound', hcontents, hfails⟩ :=
        hsplit.fill hle fun hnone => by
          by_contra hvalue
          exact htorn ((hnull (List.length_pos_iff.mpr hvalue)).mp hnone)
      refine ⟨true, _, ?_, hsound', hcontents, fun ha => ⟨rfl, ?_⟩⟩
      · simp [hwrite, DynamicElement.setChunk]
      · have hample' : Ample ⟨⟨0, [] ++ chunk :: back⟩, memory⟩ := (hample ha).2
        exact hample'.replace (hfails.trans hample'.fails)
          (hample'.whole chunk List.mem_cons_self)

/-- A value is written through the null pointer where an earlier failure left a chunk
without its block. -/
theorem setFromBytes_of_torn {value : List UInt8} (htorn : Torn element value.length) :
    element.setFromBytes value = none := by
  obtain ⟨⟨n, chunks⟩, memory⟩ := element
  obtain ⟨hpos, hnone, hle⟩ := htorn
  cases chunks with
  | nil => exact absurd (Nat.lt_of_lt_of_le hpos hle) (Nat.lt_irrefl 0)
  | cons chunk back =>
      simp only [List.head?_cons, Option.getD_some] at hnone hle
      have hvalue : value ≠ [] := List.length_pos_iff.mp hpos
      have hroom : ¬ value.length > chunk.allocatedLength := Nat.not_lt_of_ge hle
      simp [DynamicElement.setFromBytes, DynamicElement.allocateDynamicBytes, hroom,
        BlockMemory.write, hvalue, hnone]

end Setting

/-! ### The end of an element -/

section End

variable {element : DynamicElement} {memory : BlockMemory} {chunks : List Chunk}

theorem freeChunks_spec (hdistinct : (ptrs chunks).Nodup)
    (hlive : ∀ place ∈ ptrs chunks, ∃ block, get memory.blocks place = some block) :
    ∃ memory', DynamicElement.freeChunks chunks memory = some memory' ∧
      (∀ place ∈ ptrs chunks, get memory'.blocks place = none) ∧
      (∀ place, place ∉ ptrs chunks → get memory'.blocks place = get memory.blocks place) := by
  induction chunks generalizing memory with
  | nil =>
      refine ⟨memory, rfl, fun place hplace => (by cases hplace), fun _ _ => rfl⟩
  | cons chunk chunks ih =>
      obtain ⟨freed, hfree, hgone, hothers, -⟩ :=
        free_ptr memory chunk fun place hplace =>
          hlive place (mem_ptrs.mpr ⟨chunk, List.mem_cons_self, hplace⟩)
      have hrest : ∀ place ∈ ptrs chunks, chunk.ptr ≠ some place ∧
          place ∈ ptrs (chunk :: chunks) := by
        intro place hplace
        constructor
        · intro hptr
          have hcons : ptrs (chunk :: chunks) = place :: ptrs chunks := by simp [ptrs, hptr]
          rw [hcons, List.nodup_cons] at hdistinct
          exact hdistinct.1 hplace
        · obtain ⟨c, hc, hcp⟩ := mem_ptrs.mp hplace
          exact mem_ptrs.mpr ⟨c, List.mem_cons_of_mem chunk hc, hcp⟩
      have hlive' : ∀ place ∈ ptrs chunks, ∃ block, get freed.blocks place = some block := by
        intro place hplace
        rw [hothers place (hrest place hplace).1]
        exact hlive place (hrest place hplace).2
      obtain ⟨memory', hloop, hnone, hkeep⟩ := ih
        (hdistinct.sublist (List.Sublist.filterMap Chunk.ptr (List.sublist_cons_self _ _))) hlive'
      refine ⟨memory', by simp [DynamicElement.freeChunks, hfree, hloop], ?_, ?_⟩
      · intro place hplace
        by_cases hmem : place ∈ ptrs chunks
        · exact hnone place hmem
        · obtain ⟨c, hc, hcp⟩ := mem_ptrs.mp hplace
          rcases List.mem_cons.mp hc with rfl | hc
          · rw [hkeep place hmem, hgone place hcp]
          · exact absurd (mem_ptrs.mpr ⟨c, hc, hcp⟩) hmem
      · intro place hplace
        rw [hkeep place fun hmem => hplace (hrest place hmem).2, hothers place fun hptr =>
          hplace (mem_ptrs.mpr ⟨chunk, List.mem_cons_self, hptr⟩)]

/-- No block is left behind, and none is freed twice. -/
theorem finalizeBuffer_spec (h : Sound element) :
    ∃ element', element.finalizeBuffer = some element' ∧
      ∀ place, get element'.memory.blocks place = none := by
  obtain ⟨memory', hfree, hnone, hkeep⟩ := freeChunks_spec h.distinct fun place hplace => by
    obtain ⟨chunk, hchunk, hptr⟩ := mem_ptrs.mp hplace
    obtain ⟨block, hblock, -⟩ := h.live chunk hchunk place hptr
    exact ⟨block, hblock⟩
  refine ⟨_, by rw [DynamicElement.finalizeBuffer, hfree]; rfl, fun place => ?_⟩
  by_cases hplace : place ∈ ptrs element.bytes.chunks
  · exact hnone place hplace
  · simp only []
    rw [hkeep place hplace]
    cases hblock : get element.memory.blocks place with
    | none => rfl
    | some block => exact absurd (h.owned place block hblock) hplace

end End

end OracleNIO.DynamicElements
