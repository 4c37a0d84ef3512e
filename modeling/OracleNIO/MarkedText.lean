import Mathlib.Data.List.Chain
import Mathlib.Data.List.Basic
import Mathlib.Data.Sum.Basic

/-!
Text with numbered placeholders.  A placeholder is a marker character followed by
a name, and is read back by longest match; so it can be read back exactly when
the text after it does not go on with a character that names may contain.
-/

namespace OracleNIO.MarkedText

/-- The character that starts a placeholder, and those that its name can have. -/
structure Alphabet where
  marker : Char
  isWord : Char → Bool
  marker_not_word : isWord marker = false

inductive Token where
  | char (c : Char)
  | placeholder (name : List Char)
deriving DecidableEq, Repr

namespace Alphabet

variable (alphabet : Alphabet)

/-- The scanner, in the text or inside of a name read so far. -/
def scanFrom : Option (List Char) → List Char → List Token
  | none, [] => []
  | some name, [] => [.placeholder name]
  | none, c :: cs =>
      if c = alphabet.marker then scanFrom (some []) cs
      else .char c :: scanFrom none cs
  | some name, c :: cs =>
      if alphabet.isWord c then scanFrom (some (name ++ [c])) cs
      else .placeholder name ::
        if c = alphabet.marker then scanFrom (some []) cs
        else .char c :: scanFrom none cs

/-- The text as a sequence of characters and placeholders. -/
def scan (cs : List Char) : List Token :=
  alphabet.scanFrom none cs

end Alphabet

/-- The names of the placeholders, in order. -/
def placeholders : List Token → List (List Char)
  | [] => []
  | .char _ :: tokens => placeholders tokens
  | .placeholder name :: tokens => name :: placeholders tokens

/-- The values take the places of the placeholders, in order. -/
def substitute {α : Type} : List Token → List α → List (Char ⊕ α)
  | [], _ => []
  | .char c :: tokens, values => .inl c :: substitute tokens values
  | .placeholder _ :: tokens, value :: values => .inr value :: substitute tokens values
  | .placeholder _ :: tokens, [] => substitute tokens []

section Render

variable {α : Type} (alphabet : Alphabet) (name : Nat → List Char)

/-- Write the values as placeholders, numbered from `k` on. -/
def render (marker : Char) (name : Nat → List Char) :
    Nat → List (Char ⊕ α) → List Char
  | _, [] => []
  | k, .inl c :: xs => c :: render marker name k xs
  | k, .inr _ :: xs => marker :: (name k ++ render marker name (k + 1) xs)

/-- The values of a marked text, in order. -/
def values : List (Char ⊕ α) → List α
  | [] => []
  | .inl _ :: xs => values xs
  | .inr v :: xs => v :: values xs

theorem values_append (xs ys : List (Char ⊕ α)) : values (xs ++ ys) = values xs ++ values ys := by
  induction xs with
  | nil => rfl
  | cons x xs ih =>
      cases x with
      | inl c => exact ih
      | inr v => exact congrArg (v :: ·) ih

theorem render_append (marker : Char) (name : Nat → List Char) (k : Nat)
    (xs ys : List (Char ⊕ α)) :
    render marker name k (xs ++ ys) =
      render marker name k xs ++ render marker name (k + (values xs).length) ys := by
  induction xs generalizing k with
  | nil => rfl
  | cons x xs ih =>
      cases x with
      | inl c => exact congrArg (c :: ·) (ih k)
      | inr v =>
          simp only [List.cons_append, render, values, List.length_cons, ih (k + 1),
            List.append_assoc]
          rw [Nat.add_right_comm, Nat.add_assoc]

theorem render_text (marker : Char) (name : Nat → List Char) (k : Nat) (cs : List Char) :
    render marker name k (cs.map (.inl : Char → Char ⊕ α)) = cs := by
  induction cs with
  | nil => rfl
  | cons c cs ih => exact congrArg (c :: ·) ih

theorem values_text (cs : List Char) : values (cs.map (.inl : Char → Char ⊕ α)) = [] := by
  induction cs with
  | nil => rfl
  | cons c cs ih => exact ih

/-- What a name that stands in front would be continued with. -/
def wordStart : List (Char ⊕ α) → List Char
  | .inl c :: xs => if alphabet.isWord c then c :: wordStart xs else []
  | _ => []

/-- The names of the placeholders, as a reader of the text takes them. -/
def names (k : Nat) : List (Char ⊕ α) → List (List Char)
  | [] => []
  | .inl _ :: xs => names k xs
  | .inr _ :: xs => (name k ++ wordStart alphabet xs) :: names (k + 1) xs

/-- The tokens that were meant. -/
def tokens (k : Nat) : List (Char ⊕ α) → List Token
  | [] => []
  | .inl c :: xs => .char c :: tokens k xs
  | .inr _ :: xs => .placeholder (name k) :: tokens (k + 1) xs

/-- No value is directly followed by a character that names may contain. -/
def Separated : List (Char ⊕ α) → Prop
  | [] => True
  | .inl _ :: xs => Separated xs
  | .inr _ :: xs => wordStart alphabet xs = [] ∧ Separated xs

instance decidableSeparated : (xs : List (Char ⊕ α)) → Decidable (Separated alphabet xs)
  | [] => isTrue trivial
  | .inl _ :: xs => decidableSeparated xs
  | .inr _ :: xs => @instDecidableAnd _ _ inferInstance (decidableSeparated xs)

/-- The characters of the text do not contain the marker. -/
def Unmarked (xs : List (Char ⊕ α)) : Prop :=
  ∀ x ∈ xs, x ≠ .inl alphabet.marker

instance [DecidableEq α] (xs : List (Char ⊕ α)) : Decidable (Unmarked alphabet xs) :=
  inferInstanceAs (Decidable (∀ x ∈ xs, _))

variable {alphabet} {name}

theorem Unmarked.head {c : Char} {xs : List (Char ⊕ α)}
    (h : Unmarked alphabet (.inl c :: xs)) : c ≠ alphabet.marker := by
  rintro rfl
  exact h _ (by simp) rfl

theorem Unmarked.tail {x : Char ⊕ α} {xs : List (Char ⊕ α)}
    (h : Unmarked alphabet (x :: xs)) : Unmarked alphabet xs :=
  fun y hy => h y (List.mem_cons_of_mem x hy)

theorem scanFrom_word {w cs acc : List Char} (hw : ∀ c ∈ w, alphabet.isWord c = true) :
    alphabet.scanFrom (some acc) (w ++ cs) = alphabet.scanFrom (some (acc ++ w)) cs := by
  induction w generalizing acc with
  | nil => simp
  | cons c w ih =>
      have hc : alphabet.isWord c = true := hw c (by simp)
      have htail : ∀ d ∈ w, alphabet.isWord d = true := fun d hd => hw d (by simp [hd])
      rw [List.cons_append, Alphabet.scanFrom, if_pos hc, ih htail]
      simp

theorem scanFrom_marker (acc cs : List Char) :
    alphabet.scanFrom (some acc) (alphabet.marker :: cs) =
      .placeholder acc :: alphabet.scanFrom none (alphabet.marker :: cs) := by
  simp [Alphabet.scanFrom, alphabet.marker_not_word]

theorem placeholders_scanFrom_render (hname : ∀ k, ∀ c ∈ name k, alphabet.isWord c = true)
    {xs : List (Char ⊕ α)} (hxs : Unmarked alphabet xs) (k : Nat) :
    placeholders (alphabet.scanFrom none (render alphabet.marker name k xs)) =
        names alphabet name k xs ∧
      ∀ acc, placeholders (alphabet.scanFrom (some acc) (render alphabet.marker name k xs)) =
        (acc ++ wordStart alphabet xs) :: names alphabet name k xs := by
  -- both states at once, as a name goes over into the text behind it
  induction xs generalizing k with
  | nil => simp [render, Alphabet.scanFrom, placeholders, names, wordStart]
  | cons x xs ih =>
      cases x with
      | inl c =>
          obtain ⟨ihText, ihName⟩ := ih hxs.tail k
          have hc := hxs.head
          constructor
          · simpa [render, Alphabet.scanFrom, hc, placeholders, names] using ihText
          · intro acc
            by_cases hw : alphabet.isWord c = true
            · simpa [render, Alphabet.scanFrom, hw, wordStart, names] using
                ihName (acc ++ [c])
            · simpa [render, Alphabet.scanFrom, hw, hc, wordStart, placeholders, names]
                using ihText
      | inr v =>
          obtain ⟨_, ihName⟩ := ih hxs.tail (k + 1)
          have htext : placeholders
              (alphabet.scanFrom none (render alphabet.marker name k (.inr v :: xs))) =
                names alphabet name k (.inr v :: xs) := by
            rw [render, Alphabet.scanFrom, if_pos rfl, scanFrom_word (hname k), ihName]
            simp [names]
          refine ⟨htext, fun acc => ?_⟩
          rw [render, scanFrom_marker, placeholders, ← render, htext]
          simp [wordStart]

theorem names_eq_iff (xs : List (Char ⊕ α)) (k : Nat) :
    names alphabet name k xs = (List.range' k (values xs).length).map name ↔
      Separated alphabet xs := by
  induction xs generalizing k with
  | nil => simp [names, values, Separated]
  | cons x xs ih =>
      cases x with
      | inl c => exact ih k
      | inr v =>
          have htail := ih (k + 1)
          simp only [names, values, Separated, List.length_cons, List.range'_succ,
            List.map_cons, List.cons.injEq, List.append_right_eq_self, htail]

/-- The scanner reads back the placeholders of a rendered text, as they were
numbered, exactly when none is followed by a character that names may contain. -/
theorem placeholders_scan_render (hname : ∀ k, ∀ c ∈ name k, alphabet.isWord c = true)
    {xs : List (Char ⊕ α)} (hxs : Unmarked alphabet xs) (k : Nat) :
    placeholders (alphabet.scan (render alphabet.marker name k xs)) =
        (List.range' k (values xs).length).map name ↔ Separated alphabet xs := by
  rw [Alphabet.scan, (placeholders_scanFrom_render hname hxs k).1, names_eq_iff]

theorem scanFrom_render (hname : ∀ k, ∀ c ∈ name k, alphabet.isWord c = true)
    {xs : List (Char ⊕ α)} (hxs : Unmarked alphabet xs) (hsep : Separated alphabet xs)
    (k : Nat) :
    alphabet.scanFrom none (render alphabet.marker name k xs) = tokens name k xs ∧
      (wordStart alphabet xs = [] → ∀ acc,
        alphabet.scanFrom (some acc) (render alphabet.marker name k xs) =
          .placeholder acc :: tokens name k xs) := by
  induction xs generalizing k with
  | nil => simp [render, Alphabet.scanFrom, tokens]
  | cons x xs ih =>
      cases x with
      | inl c =>
          obtain ⟨ihText, _⟩ := ih hxs.tail hsep k
          have hc := hxs.head
          constructor
          · simpa [render, Alphabet.scanFrom, hc, tokens] using ihText
          · intro hstart acc
            have hw : ¬ alphabet.isWord c = true := by
              intro hw
              simp [wordStart, hw] at hstart
            simpa [render, Alphabet.scanFrom, hc, hw, tokens] using ihText
      | inr v =>
          obtain ⟨_, ihName⟩ := ih hxs.tail hsep.2 (k + 1)
          have htext : alphabet.scanFrom none (render alphabet.marker name k (.inr v :: xs)) =
              tokens name k (.inr v :: xs) := by
            rw [render, Alphabet.scanFrom, if_pos rfl, scanFrom_word (hname k),
              ihName hsep.1]
            simp [tokens]
          refine ⟨htext, fun _ acc => ?_⟩
          rw [render, scanFrom_marker, ← render, htext]

theorem substitute_tokens (xs : List (Char ⊕ α)) (k : Nat) :
    substitute (tokens name k xs) (values xs) = xs := by
  induction xs generalizing k with
  | nil => rfl
  | cons x xs ih =>
      cases x with
      | inl c => simp [tokens, values, substitute, ih k]
      | inr v => simp [tokens, values, substitute, ih (k + 1)]

theorem substitute_scan_render (hname : ∀ k, ∀ c ∈ name k, alphabet.isWord c = true)
    {xs : List (Char ⊕ α)} (hxs : Unmarked alphabet xs) (hsep : Separated alphabet xs)
    (k : Nat) :
    substitute (alphabet.scan (render alphabet.marker name k xs)) (values xs) = xs := by
  rw [Alphabet.scan, (scanFrom_render hname hxs hsep k).1, substitute_tokens]

end Render

end OracleNIO.MarkedText
