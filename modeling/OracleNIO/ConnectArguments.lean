import OracleNIO.ConnectRuns

/-!
The authorization mode and the client library directory of `connect` in the calls that
open the session.
-/

namespace OracleNIO.ConnectArguments

open Interaction Prog SwiftRuntime Dpi OracleConnection ConnectRuns

/-- The context that the call has created. -/
def created : TaskEvent → Option ContextHandle
  | ⟨.dpi (.contextCreateWithParams _ _ _), .ok context⟩ => some context
  | _ => none

/-- The context of a successful `dpiConn_create`. -/
def opened : TaskEvent → Option ContextHandle
  | ⟨.dpi (.connCreate context _ _ _ _ _), some _⟩ => context
  | _ => none

/-- The calls that open the session: the latest creation of the context that is used,
and `dpiConn_create`. -/
def openingCalls (tr : List TaskEvent) : Option (Op × Op) := do
  let conn ← tr.find? fun e => (opened e).isSome
  let creation ← (tr.filter fun e => created e = opened conn).getLast?
  return (creation.op, conn.op)

/-- The directory of the client library that a call hands over. -/
def libraryDir : Op → Option String
  | .dpi (.contextCreateWithParams _ _ params) => params.map fun p => p.oracleClientLibDir
  | _ => none

/-- The authorization mode that a call hands over, or the default for it. -/
def authMode : Op → Option UInt32
  | .dpi (.connCreate _ _ _ _ _ createParams) =>
      some (createParams.getD initConnCreateParams).authMode
  | _ => none

/-- The session is opened with the given mode, on a context with the given directory. -/
def Honours (authorizationMode : AuthorizationMode) (clientLibraryDir : Option String)
    (tr : List TaskEvent) : Prop :=
  ∃ creation conn, openingCalls tr = some (creation, conn) ∧
    libraryDir creation = clientLibraryDir ∧
      authMode conn = some authorizationMode.cValue.toUInt32

theorem openingCalls_append {clientLibraryDir : Option String} {first : List TaskEvent}
    (hfirst : FirstContext clientLibraryDir first) (context : ContextHandle) (handle : ConnHandle)
    (u p c : StringArgument) :
    openingCalls (first ++ [⟨createContext none, .ok context⟩,
        ⟨createConn context u p c, some handle⟩]) =
      some (createContext none, createConn context u p c) := by
  cases hfirst with
  | none => simp [openingCalls, opened, created, createContext, createConn]
  | some dir other => simp [openingCalls, opened, created, createContext, createConn]

variable {rt : Runtime} {authorizationMode : AuthorizationMode}
  {username password connectionString : String} {clientLibraryDir : Option String}
  {tr : List TaskEvent} {connection : OracleConnection}

/-- Whatever the arguments, a session is opened on a context without a directory and with
default parameters. -/
theorem openingCalls_connect
    (hrun : (connect rt authorizationMode username password connectionString
      clientLibraryDir).Runs tr (.value connection)) :
    ∃ context u p c, openingCalls tr =
      some (createContext none, createConn context u p c) := by
  obtain ⟨first, context, handle, u, p, c, hfirst, rfl, _⟩ :=
    runs_connect_value authorizationMode hrun
  exact ⟨context, u, p, c, openingCalls_append hfirst context handle u p c⟩

theorem cValue_eq_zero {mode : AuthorizationMode} :
    mode.cValue.toUInt32 = 0 ↔ mode = .default := by
  cases mode <;> decide

theorem honours_iff_default
    (hrun : (connect rt authorizationMode username password connectionString
      clientLibraryDir).Runs tr (.value connection)) :
    Honours authorizationMode clientLibraryDir tr ↔
      authorizationMode = .default ∧ clientLibraryDir = none := by
  obtain ⟨context, u, p, c, hcalls⟩ := openingCalls_connect hrun
  rw [← cValue_eq_zero]
  constructor
  · rintro ⟨creation, conn, hopening, hdir, hmode⟩
    cases hcalls.symm.trans hopening
    cases hdir
    exact ⟨(Option.some.inj hmode).symm, rfl⟩
  · rintro ⟨hmode, rfl⟩
    exact ⟨_, _, hcalls, rfl, congrArg some hmode.symm⟩

theorem same_openingCalls
    (hrun : (connect rt authorizationMode username password connectionString
      clientLibraryDir).Runs tr (.value connection))
    (mode : AuthorizationMode) (dir : Option String) :
    ∃ tr', (connect rt mode username password connectionString dir).Runs tr'
        (.value connection) ∧ openingCalls tr' = openingCalls tr := by
  obtain ⟨_, _, _, _, hout⟩ | ⟨first, rest, hfirst, rfl, hopens⟩ :=
    (runs_connect authorizationMode).mp hrun
  · cases hout
  · obtain ⟨first', hfirst'⟩ := firstContext_exists dir
    refine ⟨first' ++ rest, ?_, ?_⟩
    · exact (runs_connect mode).mpr (.inr ⟨first', rest, hfirst', rfl, hopens⟩)
    · cases hopens with
      | @connected u p c context handle hu hp hc =>
          rw [openingCalls_append hfirst', openingCalls_append hfirst]

/-- A run that returns a connection honours the arguments exactly if they are the
defaults, and no run tells its mode and directory from any others. -/
theorem connect_honours_iff
    (hrun : (connect rt authorizationMode username password connectionString
      clientLibraryDir).Runs tr (.value connection)) :
    (Honours authorizationMode clientLibraryDir tr ↔
        authorizationMode = .default ∧ clientLibraryDir = none) ∧
      ∀ mode dir, ∃ tr', (connect rt mode username password connectionString dir).Runs tr'
        (.value connection) ∧ openingCalls tr' = openingCalls tr :=
  ⟨honours_iff_default hrun, same_openingCalls hrun⟩

/-- A successful `connect` without a library directory. -/
def opening : List TaskEvent :=
  [⟨createContext none, .ok ⟨2⟩⟩,
    ⟨createConn ⟨2⟩ ⟨[115, 0], 1⟩ ⟨[112, 0], 1⟩ ⟨[100, 0], 1⟩, some ⟨1⟩⟩]

theorem opens_opening : Opens asciiRuntime "s" "p" "d" opening (.value ⟨some ⟨1⟩, some ⟨2⟩⟩) :=
  .connected ⟨2⟩ ⟨1⟩ (stringArgument_of_lt (by decide)) (stringArgument_of_lt (by decide))
    (stringArgument_of_lt (by decide))

theorem connect_default_honours :
    Honours .default none opening ∧
      ∃ tr', (connect asciiRuntime .sysDBA "s" "p" "d" (some "/opt/oracle")).Runs tr'
        (.value ⟨some ⟨1⟩, some ⟨2⟩⟩) ∧ openingCalls tr' = openingCalls opening := by
  obtain ⟨honours, same⟩ :=
    connect_honours_iff ((runs_connect_none .default).mpr opens_opening)
  exact ⟨honours.mpr ⟨rfl, rfl⟩, same .sysDBA (some "/opt/oracle")⟩

/-- A session asked for as `SYSDBA` is opened as an ordinary one, by the very calls. -/
theorem sysDBA_not_honoured :
    (connect asciiRuntime .sysDBA "s" "p" "d" none).Runs opening
        (.value ⟨some ⟨1⟩, some ⟨2⟩⟩) ∧
      (connect asciiRuntime .default "s" "p" "d" none).Runs opening
        (.value ⟨some ⟨1⟩, some ⟨2⟩⟩) ∧
      ¬ Honours .sysDBA none opening := by
  have hrun := (runs_connect_none .sysDBA).mpr opens_opening
  refine ⟨hrun, (runs_connect_none .default).mpr opens_opening, ?_⟩
  rw [honours_iff_default hrun]
  decide

end OracleNIO.ConnectArguments
