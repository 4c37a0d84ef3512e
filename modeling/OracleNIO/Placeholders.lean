import OracleNIO.OracleQuery

/-!
Reading the placeholders of an interpolated query back from its text.
-/

namespace OracleNIO.Placeholders

open MarkedText

/-- The characters that Oracle takes for letters. -/
structure Letters where
  isLetter : Char → Bool
  colon : isLetter ':' = false

/-- A placeholder is a colon and a name of letters, digits and underscores. -/
def Letters.alphabet (letters : Letters) : Alphabet where
  marker := ':'
  isWord c := letters.isLetter c || c.isDigit || c == '_'
  marker_not_word := by simp [letters.colon]

def asciiLetters : Letters where
  isLetter := Char.isAlpha
  colon := by decide

/-- Scanning the text gives the placeholders `:1`, `:2` and so on, one for each bind,
and putting the binds in their place gives back the texts and values. -/
def ReadBack (letters : Letters) (query : OracleQuery)
    (original : List (Char ⊕ OracleData)) : Prop :=
  placeholders (letters.alphabet.scan query.sql.toList) =
      (List.range query.binds.count).map (fun k => Nat.toDigits 10 (k + 1)) ∧
    substitute (letters.alphabet.scan query.sql.toList) query.binds.values = original

instance (letters : Letters) (query : OracleQuery) (original : List (Char ⊕ OracleData)) :
    Decidable (ReadBack letters query original) :=
  inferInstanceAs (Decidable (_ ∧ _))

theorem isWord_placeholderName (letters : Letters) (k : Nat) :
    ∀ c ∈ placeholderName k, letters.alphabet.isWord c = true := by
  intro c hc
  have hdigit : c.isDigit = true := Nat.isDigit_of_mem_toDigits (by decide) (by decide) hc
  simp [Letters.alphabet, hdigit]

theorem interpolate_contents {segments : List Segment} {query : OracleQuery}
    (hquery : StringInterpolation.init.interpolate segments = .ok query) :
    query.sql.toList = render ':' placeholderName 0 (contents segments) ∧
      query.binds.values = values (contents segments) := by
  have heq := interpolate_eq (s := .init) (interpolate_throws hquery)
  obtain rfl : OracleQuery.ofInterpolation (StringInterpolation.init.appendAll segments) =
      query := by
    rw [heq] at hquery
    exact Except.ok.inj hquery
  obtain ⟨hsql, hvalues⟩ := appendAll_contents .init segments
  constructor
  · rw [OracleQuery.ofInterpolation, hsql]
    rfl
  · rw [OracleQuery.ofInterpolation, hvalues]
    rfl

/-- The placeholders of an interpolated query without colons in its texts can be read
back exactly when no value is followed directly by a letter, digit or underscore. -/
theorem readBack_iff_separated (letters : Letters) {segments : List Segment}
    {query : OracleQuery}
    (hquery : StringInterpolation.init.interpolate segments = .ok query)
    (hcolon : Unmarked letters.alphabet (contents segments)) :
    ReadBack letters query (contents segments) ↔
      Separated letters.alphabet (contents segments) := by
  obtain ⟨hsql, hvalues⟩ := interpolate_contents hquery
  have hnames := isWord_placeholderName letters
  have hscan := placeholders_scan_render hnames hcolon 0
  rw [ReadBack, hsql, OracleBindings.count, hvalues, List.range_eq_range']
  constructor
  · rintro ⟨hplaceholders, _⟩
    exact hscan.mp hplaceholders
  · intro hseparated
    exact ⟨hscan.mpr hseparated, substitute_scan_render hnames hcolon hseparated 0⟩

theorem readBack_separated :
    ReadBack asciiLetters ⟨"SELECT :1 AS value", ⟨[.integer 7]⟩⟩
      (contents [.literal "SELECT ", .value ⟨some (.integer 7)⟩, .literal " AS value"]) :=
  (readBack_iff_separated asciiLetters (by decide) (by decide)).mpr (by decide)

/-- `SELECT \(7)0` has the text of a query with one placeholder `:10`. -/
theorem not_readBack_joined_digit :
    StringInterpolation.init.interpolate
        [.literal "SELECT ", .value ⟨some (.integer 7)⟩, .literal "0"] =
          .ok ⟨"SELECT :10", ⟨[.integer 7]⟩⟩ ∧
      Unmarked asciiLetters.alphabet
        (contents [.literal "SELECT ", .value ⟨some (.integer 7)⟩, .literal "0"]) ∧
      ¬ ReadBack asciiLetters ⟨"SELECT :10", ⟨[.integer 7]⟩⟩
        (contents [.literal "SELECT ", .value ⟨some (.integer 7)⟩, .literal "0"]) := by
  decide

end OracleNIO.Placeholders
