import OracleNIO.ByteMemory
import Mathlib.Data.List.Chain

/-!
Extended grapheme clusters: the boundary rules over break classes, and the
number of clusters of a text compared with its scalars and its UTF-8 bytes.
-/

namespace OracleNIO.GraphemeClusters

open ByteMemory

/-- The property of a character by which clusters are told apart. -/
inductive BreakClass where
  | cr | lf | control | extend | zwj | prepend | spacingMark | regionalIndicator
  | l | v | t | lv | lvt | extendedPictographic | other
deriving DecidableEq, Repr

/-- The part of the text on the left that a boundary can depend on: the last
scalar, whether it ends a pictograph with its extensions and joiner, and whether
it is the first of a pair of regional indicators. -/
structure Left where
  last : BreakClass
  pictograph : Bool
  unpaired : Bool

def Left.start (b : BreakClass) : Left where
  last := b
  pictograph := b = .extendedPictographic
  unpaired := b = .regionalIndicator

def Left.next (left : Left) (b : BreakClass) : Left where
  last := b
  pictograph := b = .extendedPictographic ∨
    left.pictograph ∧ left.last ≠ .zwj ∧ (b = .extend ∨ b = .zwj)
  unpaired := b = .regionalIndicator ∧ ¬ left.unpaired

/-- There is a break before and after such a character. -/
def BreakClass.isControl : BreakClass → Bool
  | .cr | .lf | .control => true
  | _ => false

/-- Whether there is a break before the next character. -/
def Left.breaks (left : Left) (b : BreakClass) : Bool :=
  match left.last, b with
  | .cr, .lf => false
  | a, b =>
      if a.isControl ∨ b.isControl then true
      else match a, b with
        | .l, .l | .l, .v | .l, .lv | .l, .lvt => false
        | .lv, .v | .lv, .t | .v, .v | .v, .t => false
        | .lvt, .t | .t, .t => false
        | _, .extend | _, .zwj | _, .spacingMark => false
        | .prepend, _ => false
        | .zwj, .extendedPictographic => !left.pictograph
        | .regionalIndicator, .regionalIndicator => !left.unpaired
        | _, _ => true

/-- The breaks between the characters, after what is to their left. -/
def innerBreaks : Left → List BreakClass → Nat
  | _, [] => 0
  | left, b :: bs => (if left.breaks b then 1 else 0) + innerBreaks (left.next b) bs

/-- The number of clusters. -/
def clusters : List BreakClass → Nat
  | [] => 0
  | b :: bs => 1 + innerBreaks (.start b) bs

/-- The property of an ASCII character. -/
def asciiClass (c : Char) : BreakClass :=
  if c = '\r' then .cr
  else if c = '\n' then .lf
  else if c.toNat < 32 ∨ c.toNat = 127 then .control
  else .other

/-- The character property table of some version of Unicode; its ASCII part is
the same in all of them. -/
structure GraphemeTable where
  property : Char → BreakClass
  ascii : ∀ c : Char, c.toNat < 128 → property c = asciiClass c

/-- `count` of a string with the characters. -/
def GraphemeTable.count (table : GraphemeTable) (cs : List Char) : Nat :=
  clusters (cs.map table.property)

/-- The text is ASCII and no CR LF pair occurs in it. -/
def Plain (cs : List Char) : Prop :=
  (∀ c ∈ cs, c.toNat < 128) ∧ cs.IsChain fun a b => ¬ (a = '\r' ∧ b = '\n')

instance (cs : List Char) : Decidable (Plain cs) :=
  inferInstanceAs (Decidable (_ ∧ _))

theorem innerBreaks_le (left : Left) (bs : List BreakClass) :
    innerBreaks left bs ≤ bs.length := by
  induction bs generalizing left with
  | nil => rfl
  | cons b bs ih =>
      have htail := ih (left.next b)
      simp only [innerBreaks, List.length_cons]
      split <;> omega

theorem clusters_le (bs : List BreakClass) : clusters bs ≤ bs.length := by
  cases bs with
  | nil => rfl
  | cons b bs =>
      have htail := innerBreaks_le (.start b) bs
      simp only [clusters, List.length_cons]
      omega

theorem breaks_ascii {a b : Char} (left : Left) (hleft : left.last = asciiClass a) :
    left.breaks (asciiClass b) = true ↔ ¬ (a = '\r' ∧ b = '\n') := by
  have hcr : asciiClass a = .cr ↔ a = '\r' := by
    unfold asciiClass
    split_ifs <;> simp_all
  have hlf : asciiClass b = .lf ↔ b = '\n' := by
    unfold asciiClass
    split_ifs <;> simp_all
  have hclass : ∀ c : Char, asciiClass c = .cr ∨ asciiClass c = .lf ∨
      asciiClass c = .control ∨ asciiClass c = .other := by
    intro c
    unfold asciiClass
    split_ifs <;> simp
  rw [← hcr, ← hlf]
  rcases hclass a with ha | ha | ha | ha <;> rcases hclass b with hb | hb | hb | hb <;>
    simp [Left.breaks, BreakClass.isControl, hleft, ha, hb]

theorem innerBreaks_ascii {a : Char} {cs : List Char} (left : Left)
    (hleft : left.last = asciiClass a) :
    innerBreaks left (cs.map asciiClass) = cs.length ↔
      (a :: cs).IsChain fun a b => ¬ (a = '\r' ∧ b = '\n') := by
  induction cs generalizing a left with
  | nil => simp [innerBreaks]
  | cons b cs ih =>
      have htail := ih (left.next (asciiClass b)) rfl
      have hle := innerBreaks_le (left.next (asciiClass b)) (cs.map asciiClass)
      rw [List.length_map] at hle
      rw [List.isChain_cons_cons, ← htail, ← breaks_ascii left hleft]
      simp only [List.map_cons, innerBreaks, List.length_cons]
      split
      case isTrue hb => simp only [hb, true_and]; omega
      case isFalse hb => simp only [hb, Bool.false_eq_true, false_and, iff_false]; omega

theorem count_ascii (table : GraphemeTable) {cs : List Char}
    (hcs : ∀ c ∈ cs, c.toNat < 128) :
    table.count cs = cs.length ↔ cs.IsChain fun a b => ¬ (a = '\r' ∧ b = '\n') := by
  have hmap : cs.map table.property = cs.map asciiClass :=
    List.map_congr_left fun c hc => table.ascii c (hcs c hc)
  rw [GraphemeTable.count, hmap]
  cases cs with
  | nil => simp [clusters]
  | cons a cs =>
      rw [← innerBreaks_ascii (.start (asciiClass a)) rfl]
      simp only [List.map_cons, clusters, List.length_cons]
      omega

theorem length_le_length_encode (cs : List Char) : cs.length ≤ (encode cs).length := by
  induction cs with
  | nil => rfl
  | cons c cs ih =>
      have hpos := Char.utf8Size_pos c
      simp only [encode, List.flatMap_cons, List.length_append, List.length_cons,
        String.length_utf8EncodeChar] at ih ⊢
      omega

theorem length_encode_eq (cs : List Char) :
    (encode cs).length = cs.length ↔ ∀ c ∈ cs, c.toNat < 128 := by
  induction cs with
  | nil => simp
  | cons c cs ih =>
      have hpos := Char.utf8Size_pos c
      have hle := length_le_length_encode cs
      have hone : c.utf8Size = 1 ↔ c.toNat < 128 := by
        rw [Char.utf8Size_eq_one_iff, UInt32.le_iff_toNat_le]
        exact Nat.lt_succ_iff.symm
      rw [List.forall_mem_cons, ← ih, ← hone]
      simp only [encode, List.flatMap_cons, List.length_append, List.length_cons,
        String.length_utf8EncodeChar] at hle ⊢
      omega

theorem count_le_length_encode (table : GraphemeTable) (cs : List Char) :
    table.count cs ≤ (encode cs).length := by
  have hcount := clusters_le (cs.map table.property)
  rw [List.length_map] at hcount
  exact hcount.trans (length_le_length_encode cs)

theorem count_eq_length_encode (table : GraphemeTable) (cs : List Char) :
    table.count cs = (encode cs).length ↔ Plain cs := by
  have hcount := clusters_le (cs.map table.property)
  rw [List.length_map] at hcount
  have hencode := length_le_length_encode cs
  constructor
  · intro h
    have hall : ∀ c ∈ cs, c.toNat < 128 := by
      rw [← length_encode_eq]
      simp only [GraphemeTable.count] at h
      omega
    refine ⟨hall, (count_ascii table hall).mp ?_⟩
    rw [h, (length_encode_eq cs).mpr hall]
  · rintro ⟨hall, hchain⟩
    rw [(count_ascii table hall).mpr hchain, (length_encode_eq cs).mpr hall]

end OracleNIO.GraphemeClusters
