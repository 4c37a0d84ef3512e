import OracleNIO.ConnectRuns
import OracleNIO.TaskOperations

/-!
The strings that are passed to ODPI-C with an explicit length: the SQL text, the text
binds and the credentials.
-/

namespace OracleNIO.OutgoingStrings

open Interaction Prog SwiftRuntime ByteMemory GraphemeClusters Dpi TaskOperations
open OracleConnection ConnectRuns

/-- The strings that a call passes, with their lengths. -/
def DpiCall.strings : DpiCall → List StringArgument
  | .connPrepareStmt _ sql => [sql]
  | .connCreate _ userName password connectString _ _ => [userName, password, connectString]
  | .stmtBindValueByPos _ _ .bytes ⟨_, .asBytes ⟨_, length⟩⟩ memory => [⟨memory, length⟩]
  | _ => []

/-- The strings that an operation passes to ODPI-C. -/
def strings : Op → List StringArgument
  | .dpi c => DpiCall.strings c
  | _ => []

/-- The pair denotes exactly the UTF-8 bytes of the string. -/
def Whole (s : String) (arg : StringArgument) : Prop :=
  arg.length.toNat = (utf8 s).length ∧ arg.bytes = utf8 s

instance (s : String) (arg : StringArgument) : Decidable (Whole s arg) :=
  inferInstanceAs (Decidable (_ ∧ _))

/-- The pair is exact for the plain strings only. -/
def WholeIffPlain (s : String) (arg : StringArgument) : Prop :=
  Whole s arg ↔ Plain s.toList

def PassesPlain (ss : List String) (op : Op) : Prop :=
  strings op = [] ∨ List.Forall₂ WholeIffPlain ss (strings op)

theorem whole_iff_plain {rt : Runtime} {s : String} {arg : StringArgument}
    (h : stringArgument rt s = .value arg) : WholeIffPlain s arg := by
  obtain ⟨hmemory, hlength⟩ := stringArgument_value h
  have hplain : rt.count s = (utf8 s).length ↔ Plain s.toList :=
    count_eq_length_encode rt.graphemes s.toList
  rw [WholeIffPlain, ← hplain, ← hlength]
  constructor
  · rintro ⟨hlen, _⟩
    exact hlen
  · intro hlen
    refine ⟨hlen, ?_⟩
    rw [StringArgument.bytes, readBytes, hmemory, hlen, List.drop_zero, List.take_left']
    rfl

theorem errorOps_passesPlain (ss : List String) : ErrorOps (.only (PassesPlain ss)) where
  readContext _ := .inl rfl
  getError _ _ := .inl rfl

theorem initOps_passesPlain (rt : Runtime) (query : String) :
    InitOps (.only (PassesPlain [query])) rt query where
  error := errorOps_passesPlain [query]
  readHandle _ := .inl rfl
  prepareStmt _ _ _ hsql := .inr (.cons (whole_iff_plain hsql) .nil)

theorem respects_bindText (rt : Runtime) (statement : OracleStatement) (pos : UInt32)
    (s : String) :
    (statement.bindValue rt pos (.text s)).Respects (.only (PassesPlain [s]))
      fun s => s.handle = statement.handle := by
  apply respects_ofOutcome_bind
  intro arg harg
  exact respects_bindValueByPos (errorOps_passesPlain [s])
    fun _ => .inr (.cons (whole_iff_plain harg) .nil)

theorem passes_connect {rt : Runtime} {authorizationMode : AuthorizationMode}
    {username password connectionString : String} {clientLibraryDir : Option String}
    {tr : List TaskEvent} {out : Outcome OracleError OracleConnection}
    (hrun : (connect rt authorizationMode username password connectionString
      clientLibraryDir).Runs tr out) :
    ∀ e ∈ tr, PassesPlain [username, password, connectionString] e.op := by
  apply forall_mem_connect
    (P := fun e => PassesPlain [username, password, connectionString] e.op) authorizationMode hrun
  · exact fun _ _ => .inl rfl
  · intro context u p c reply hu hp hc
    exact .inr (.cons (whole_iff_plain hu) (.cons (whole_iff_plain hp)
      (.cons (whole_iff_plain hc) .nil)))
  · exact fun _ _ => .inl rfl

/-- At every one of the five places where a string is passed with a length, the pair
denotes the whole string exactly when the string is ASCII without a CR LF pair. -/
theorem strings_whole_iff_plain (rt : Runtime) :
    (∀ (query : String) (tr : List TaskEvent) (out : Outcome OracleError OracleStatement),
        (OracleStatement.init rt query).Runs tr out →
          ∀ e ∈ tr, PassesPlain [query] e.op) ∧
      (∀ (statement : OracleStatement) (pos : UInt32) (s : String) (tr : List TaskEvent)
        (out : Outcome OracleError OracleStatement),
          (statement.bindValue rt pos (.text s)).Runs tr out →
            ∀ e ∈ tr, PassesPlain [s] e.op) ∧
      ∀ (authorizationMode : AuthorizationMode) (username password connectionString : String)
        (clientLibraryDir : Option String) (tr : List TaskEvent)
        (out : Outcome OracleError OracleConnection),
          (connect rt authorizationMode username password connectionString
              clientLibraryDir).Runs tr out →
            ∀ e ∈ tr, PassesPlain [username, password, connectionString] e.op := by
  refine ⟨?_, ?_, ?_⟩
  · intro query tr out hrun
    exact (respects_runs (respects_init (initOps_passesPlain rt query)) hrun).1
  · intro statement pos s tr out hrun
    exact (respects_runs (respects_bindText rt statement pos s) hrun).1
  · intro authorizationMode username password connectionString clientLibraryDir tr out hrun
    exact passes_connect hrun

/-- The `WHERE` after a CR LF loses its last character. -/
theorem not_whole_crlf :
    ∃ (tr : List TaskEvent) (out : Outcome OracleError OracleStatement) (e : TaskEvent)
      (arg : StringArgument),
      (OracleStatement.init asciiRuntime "DELETE FROM t\r\nWHERE id = 12").Runs tr out ∧
        e ∈ tr ∧ arg ∈ strings e.op ∧
          arg.bytes = utf8 "DELETE FROM t\r\nWHERE id = 1" ∧
            ¬ Whole "DELETE FROM t\r\nWHERE id = 12" arg := by
  have harg : stringArgument asciiRuntime "DELETE FROM t\r\nWHERE id = 12" =
      .value ⟨utf8 "DELETE FROM t\r\nWHERE id = 12" ++ [0], 27⟩ :=
    stringArgument_of_lt (by decide)
  refine ⟨[⟨.readHandle, some ⟨1⟩⟩, ⟨.dpi (.connPrepareStmt ⟨1⟩
    ⟨utf8 "DELETE FROM t\r\nWHERE id = 12" ++ [0], 27⟩), some ⟨2⟩⟩], .value ⟨⟨2⟩, []⟩,
    ⟨.dpi (.connPrepareStmt ⟨1⟩ ⟨utf8 "DELETE FROM t\r\nWHERE id = 12" ++ [0], 27⟩),
      some ⟨2⟩⟩, ⟨utf8 "DELETE FROM t\r\nWHERE id = 12" ++ [0], 27⟩, ⟨_, _, rfl, ?_⟩,
    List.mem_cons_of_mem _ (List.mem_singleton_self _), List.mem_singleton_self _, ?_⟩
  · change (ofOutcome (stringArgument asciiRuntime _) >>= _).Runs _ _
    rw [harg]
    exact ⟨_, _, rfl, rfl, rfl⟩
  · decide

end OracleNIO.OutgoingStrings
