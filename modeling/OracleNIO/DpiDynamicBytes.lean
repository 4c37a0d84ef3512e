import OracleNIO.DpiVar
import OracleNIO.ObjectStore

/-!
The chunks in which ODPI-C keeps the bytes of one element of a dynamic variable
(`dpiVar.c`): they are handed to OCI one after the other while it delivers a value in
pieces, and are put together when the value is read.
-/

namespace OracleNIO.Dpi

open ByteMemory ObjectStore

/-- The blocks of the allocator, which of the coming allocations fail, and what a block
holds at first. -/
structure BlockMemory where
  blocks : Store (List UInt8)
  fails : List Bool
  uninitialised : Nat → Nat → UInt8

namespace BlockMemory

variable (memory : BlockMemory)

/-- `dpiUtils__allocateMemory`; a failed allocation yields the null pointer. -/
def allocateMemory (size : Nat) : Option Nat × BlockMemory :=
  if memory.fails.headD false then (none, { memory with fails := memory.fails.tail })
  else
    (some memory.blocks.length,
      { memory with
        blocks := alloc memory.blocks
          ((List.range size).map (memory.uninitialised memory.blocks.length))
        fails := memory.fails.tail })

/-- `dpiUtils__freeMemory`; `none` where the pointer has been freed already. -/
def freeMemory : Option Nat → Option BlockMemory
  | none => some memory
  | some ptr =>
      if (get memory.blocks ptr).isSome then
        some { memory with blocks := free memory.blocks ptr }
      else none

/-- A copy to `ptr + offset`; `none` where it leaves the block. -/
def write (ptr : Option Nat) (offset : Nat) (bytes : List UInt8) : Option BlockMemory :=
  if bytes = [] then some memory
  else do
    let ptr ← ptr
    let block ← get memory.blocks ptr
    if offset + bytes.length ≤ block.length then
      some { memory with blocks := put memory.blocks ptr (writeBytes block offset bytes) }
    else none

/-- `memcpy` from a pointer; nothing is read where the length is 0. -/
def read (ptr : Option Nat) (length : Nat) : Option (List UInt8) :=
  if length = 0 then some []
  else do
    let ptr ← ptr
    let block ← get memory.blocks ptr
    if length ≤ block.length then some (block.take length) else none

end BlockMemory

/-- `dpiDynamicBytesChunk`. -/
structure Chunk where
  ptr : Option Nat
  length : Nat
  allocatedLength : Nat
deriving DecidableEq, Repr

/-- A chunk whose memory has been set to zeros. -/
def Chunk.empty : Chunk := ⟨none, 0, 0⟩

/-- `dpiDynamicBytes`; `allocatedChunks` is the length of `chunks`. -/
structure DynamicBytes where
  numChunks : Nat
  chunks : List Chunk
deriving DecidableEq, Repr

/-- The bytes of an element, in their memory. -/
structure DynamicElement where
  bytes : DynamicBytes
  memory : BlockMemory

namespace DynamicElement

variable (element : DynamicElement)

/-- The element with another chunk at the place. -/
def setChunk (i : Nat) (chunk : Chunk) : DynamicElement :=
  { element with bytes.chunks := element.bytes.chunks.set i chunk }

/-- `dpiVar__allocateChunks`.  The array of chunks is not among the blocks; whether it
can be allocated is the next of `fails`. -/
def allocateChunks : Bool × DynamicElement :=
  let failed := element.memory.fails.headD false
  let memory := { element.memory with fails := element.memory.fails.tail }
  if failed then (false, { element with memory })
  else
    let chunks := element.bytes.chunks
    let kept := chunks.take element.bytes.numChunks
    (true,
      { bytes :=
          { element.bytes with
            chunks := kept ++ List.replicate (chunks.length + 8 - kept.length) .empty }
        memory })

/-- `dpiVar__defineCallback`: the chunk that OCI is to fill next. -/
def defineCallback : Option (Bool × DynamicElement) :=
  let (succeeded, element) :=
    if element.bytes.numChunks = element.bytes.chunks.length then element.allocateChunks
    else (true, element)
  if succeeded = false then some (false, element)
  else do
    let chunk ← element.bytes.chunks[element.bytes.numChunks]?
    let (chunk, element) :=
      if chunk.ptr.isNone then
        let (ptr, memory) := element.memory.allocateMemory DpiVar.dynamicBytesChunkSize
        let chunk := { chunk with ptr, allocatedLength := DpiVar.dynamicBytesChunkSize }
        (chunk, { element with memory }.setChunk element.bytes.numChunks chunk)
      else (chunk, element)
    if chunk.ptr.isNone then some (false, element)
    else
      let element := element.setChunk element.bytes.numChunks
        { chunk with length := chunk.allocatedLength }
      some (true, { element with bytes.numChunks := element.bytes.numChunks + 1 })

/-- OCI asks for a chunk and puts a piece of the value into it. -/
def deliverPiece (piece : List UInt8) : Option (Bool × DynamicElement) := do
  let (succeeded, element) ← element.defineCallback
  if succeeded = false then some (false, element)
  else
    let i := element.bytes.numChunks - 1
    let chunk ← element.bytes.chunks[i]?
    let memory ← element.memory.write chunk.ptr 0 piece
    some (true, { element with memory }.setChunk i { chunk with length := piece.length })

/-- The loop that copies the chunks into the consolidated one and frees them. -/
def consolidate (target : Nat) : Nat → List Chunk → BlockMemory → Option (Nat × BlockMemory)
  | length, [], memory => some (length, memory)
  | length, chunk :: chunks, memory => do
      let bytes ← memory.read chunk.ptr chunk.length
      let memory ← memory.write (some target) length bytes
      let memory ← memory.freeMemory chunk.ptr
      consolidate target (length + chunk.length) chunks memory

/-- How many values a `uint32_t` has. -/
def uint32Size : Nat := 4294967296

/-- `dpiVar__setBytesFromDynamicBytes`, and the bytes read through the result. -/
def setBytesFromDynamicBytes : Option (Option (List UInt8) × DynamicElement) :=
  let dynBytes := element.bytes
  if dynBytes.numChunks = 1 then do
    let chunk ← dynBytes.chunks.head?
    let bytes ← element.memory.read chunk.ptr chunk.length
    some (some bytes, element)
  else
    let used := dynBytes.chunks.take dynBytes.numChunks
    let totalAllocatedLength := (used.map (·.allocatedLength)).sum % uint32Size
    match element.memory.allocateMemory totalAllocatedLength with
    | (none, memory) => some (none, { element with memory })
    | (some target, memory) => do
        let (length, memory) ← consolidate target 0 used memory
        -- there is a first chunk to hold the bytes
        if dynBytes.chunks = [] then none
        else
          let consolidated := ⟨some target, length, totalAllocatedLength⟩
          let chunks := consolidated ::
            (List.replicate (used.length - 1) .empty ++ dynBytes.chunks.drop (max used.length 1))
          let bytes ← memory.read (some target) length
          some (some bytes, ⟨⟨1, chunks⟩, memory⟩)

/-- `dpiVar__allocateDynamicBytes`. -/
def allocateDynamicBytes (size : Nat) : Option (Bool × DynamicElement) :=
  let element := { element with bytes.numChunks := 0 }
  let (succeeded, element) :=
    if element.bytes.chunks.length = 0 then element.allocateChunks else (true, element)
  if succeeded = false then some (false, element)
  else do
    let chunk ← element.bytes.chunks.head?
    if size > chunk.allocatedLength then
      let memory ← element.memory.freeMemory chunk.ptr
      let allocatedLength := DpiVar.allocatedLength size
      let (ptr, memory) := memory.allocateMemory allocatedLength
      let element := { element with memory }.setChunk 0 { chunk with ptr, allocatedLength }
      some (ptr.isSome, element)
    else some (true, element)

/-- The part of `dpiVar__setFromBytes` for dynamic bytes. -/
def setFromBytes (value : List UInt8) : Option (Bool × DynamicElement) := do
  let (succeeded, element) ← element.allocateDynamicBytes value.length
  if succeeded = false then some (false, element)
  else
    let chunk ← element.bytes.chunks.head?
    let memory ← element.memory.write chunk.ptr 0 value
    let element := { element with memory }.setChunk 0 { chunk with length := value.length }
    some (true, { element with bytes.numChunks := 1 })

/-- The part of `dpiVar__extendedPreFetch` for dynamic bytes. -/
def extendedPreFetch : DynamicElement := { element with bytes.numChunks := 0 }

/-- The blocks of the chunks are given back one after the other. -/
def freeChunks : List Chunk → BlockMemory → Option BlockMemory
  | [], memory => some memory
  | chunk :: chunks, memory => do
      let memory ← memory.freeMemory chunk.ptr
      freeChunks chunks memory

/-- The part of `dpiVar__finalizeBuffer` for dynamic bytes. -/
def finalizeBuffer : Option DynamicElement := do
  let memory ← freeChunks element.bytes.chunks element.memory
  some ⟨⟨element.bytes.numChunks, []⟩, memory⟩

end DynamicElement

end OracleNIO.Dpi
