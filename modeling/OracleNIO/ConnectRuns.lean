import OracleNIO.OracleConnection

/-!
The complete runs of `connect`.
-/

namespace OracleNIO.ConnectRuns

open Interaction Prog SwiftRuntime Dpi OracleConnection

/-- The creation of a context, with the parameters of `connect`. -/
def createContext (params : Option ContextCreateParams) : Op :=
  .dpi (.contextCreateWithParams majorVersion minorVersion params)

/-- What `connect` sets in the parameters for a library directory. -/
def createParams (dir : String) : ContextCreateParams :=
  ⟨"oracle-nio", dir⟩

/-- The creation of the connection. -/
def createConn (context : ContextHandle) (username password connectionString : StringArgument) :
    Op :=
  .dpi (.connCreate (some context) username password connectionString none none)

variable {rt : Runtime} (authorizationMode : AuthorizationMode)
  {username password connectionString : String}

/-- The runs without a client library directory. -/
inductive Opens (rt : Runtime) (username password connectionString : String) :
    List TaskEvent → Outcome OracleError OracleConnection → Prop
  | noContext (info : ErrorInfo) :
      Opens rt username password connectionString [⟨createContext none, .error info⟩]
        (.error (.ofErrorInfo info))
  | tooLong (context : ContextHandle)
      (h : ∀ u p c, ¬ (stringArgument rt username = .value u ∧
        stringArgument rt password = .value p ∧
        stringArgument rt connectionString = .value c)) :
      Opens rt username password connectionString [⟨createContext none, .ok context⟩] .trap
  | refused {u p c : StringArgument} (context : ContextHandle) (info : ErrorInfo)
      (hu : stringArgument rt username = .value u) (hp : stringArgument rt password = .value p)
      (hc : stringArgument rt connectionString = .value c) :
      Opens rt username password connectionString
        [⟨createContext none, .ok context⟩, ⟨createConn context u p c, none⟩,
          ⟨.dpi (.contextGetError (some context)), info⟩]
        (.error (.ofErrorInfo info))
  | connected {u p c : StringArgument} (context : ContextHandle) (handle : ConnHandle)
      (hu : stringArgument rt username = .value u) (hp : stringArgument rt password = .value p)
      (hc : stringArgument rt connectionString = .value c) :
      Opens rt username password connectionString
        [⟨createContext none, .ok context⟩, ⟨createConn context u p c, some handle⟩]
        (.value ⟨some handle, some context⟩)

theorem stringArgument_not_error {s : String} {e : OracleError} :
    stringArgument rt s ≠ .error e := by
  unfold stringArgument
  cases hlength : (uint32 (rt.count s) : Outcome OracleError UInt32) with
  | value length => nofun
  | error e => exact absurd hlength uint32_ne_error
  | trap => nofun

theorem runs_stringArgument_bind {s : String} {f : StringArgument → Task OracleConnection}
    {tr : List TaskEvent} {out : Outcome OracleError OracleConnection} :
    (ofOutcome (stringArgument rt s) >>= f).Runs tr out ↔
      (∃ a, stringArgument rt s = .value a ∧ (f a).Runs tr out) ∨
        (∀ a, stringArgument rt s ≠ .value a) ∧ tr = [] ∧ out = .trap := by
  cases hs : stringArgument rt s with
  | error e => exact absurd hs stringArgument_not_error
  | value a =>
      constructor
      · intro h
        exact .inl ⟨a, rfl, h⟩
      · rintro (⟨_, ⟨⟩, h⟩ | ⟨hne, _⟩)
        · exact h
        · exact absurd rfl (hne a)
  | trap =>
      constructor
      · intro h
        exact .inr ⟨nofun, h⟩
      · rintro (⟨_, ⟨⟩, _⟩ | ⟨_, h⟩)
        exact h

/-- The last part of `connect`: the three strings are passed on unless one is too long. -/
theorem runs_arguments {f : StringArgument → StringArgument → StringArgument →
      Task OracleConnection} {tr : List TaskEvent} {out : Outcome OracleError OracleConnection} :
    (do
      let u ← ofOutcome (stringArgument rt username)
      let p ← ofOutcome (stringArgument rt password)
      let c ← ofOutcome (stringArgument rt connectionString)
      f u p c).Runs tr out ↔
      (∃ u p c, stringArgument rt username = .value u ∧ stringArgument rt password = .value p ∧
        stringArgument rt connectionString = .value c ∧ (f u p c).Runs tr out) ∨
      (∀ u p c, ¬ (stringArgument rt username = .value u ∧
        stringArgument rt password = .value p ∧
        stringArgument rt connectionString = .value c)) ∧ tr = [] ∧ out = .trap := by
  simp only [runs_stringArgument_bind]
  constructor
  · rintro (⟨u, hu, ⟨p, hp, ⟨c, hc, h⟩ | ⟨hc, h⟩⟩ | ⟨hp, h⟩⟩ | ⟨hu, h⟩)
    · exact .inl ⟨u, p, c, hu, hp, hc, h⟩
    · exact .inr ⟨fun _ _ c hall => hc c hall.2.2, h⟩
    · exact .inr ⟨fun _ p _ hall => hp p hall.2.1, h⟩
    · exact .inr ⟨fun u _ _ hall => hu u hall.1, h⟩
  · rintro (⟨u, p, c, hu, hp, hc, h⟩ | ⟨hnone, h⟩)
    · exact .inl ⟨u, hu, .inl ⟨p, hp, .inl ⟨c, hc, h⟩⟩⟩
    · cases hu : stringArgument rt username with
      | error e => exact absurd hu stringArgument_not_error
      | trap => exact .inr ⟨nofun, h⟩
      | value u =>
          refine .inl ⟨u, rfl, ?_⟩
          cases hp : stringArgument rt password with
          | error e => exact absurd hp stringArgument_not_error
          | trap => exact .inr ⟨nofun, h⟩
          | value p => exact .inl ⟨p, rfl, .inr ⟨fun c hc => hnone u p c ⟨hu, hp, hc⟩, h⟩⟩

theorem runs_connect_none {tr : List TaskEvent} {out : Outcome OracleError OracleConnection} :
    (connect rt authorizationMode username password connectionString none).Runs tr out ↔
      Opens rt username password connectionString tr out := by
  constructor
  · rintro ⟨created, rest, rfl, hrun⟩
    cases created with
    | error info =>
        rcases hrun with ⟨rfl, rfl⟩
        exact .noContext info
    | ok context =>
        obtain ⟨u, p, c, hu, hp, hc, handle, rest', rfl, hrun'⟩ | ⟨hnone, rfl, rfl⟩ :=
          runs_arguments.mp hrun
        · cases handle with
          | some handle =>
              rcases hrun' with ⟨rfl, rfl⟩
              exact .connected context handle hu hp hc
          | none =>
              rcases hrun' with ⟨info, rest'', rfl, rfl, rfl⟩
              exact .refused context info hu hp hc
        · exact .tooLong context hnone
  · intro h
    cases h with
    | noContext info => exact ⟨.error info, [], rfl, rfl, rfl⟩
    | tooLong context h =>
        exact ⟨.ok context, [], rfl, runs_arguments.mpr (.inr ⟨h, rfl, rfl⟩)⟩
    | refused context info hu hp hc =>
        exact ⟨.ok context, _, rfl, runs_arguments.mpr (.inl ⟨_, _, _, hu, hp, hc,
          none, _, rfl, info, [], rfl, rfl, rfl⟩)⟩
    | connected context handle hu hp hc =>
        exact ⟨.ok context, _, rfl, runs_arguments.mpr (.inl ⟨_, _, _, hu, hp, hc,
          some handle, [], rfl, rfl, rfl⟩)⟩

/-- The context that is created for a client library directory before the one that is
used. -/
inductive FirstContext : Option String → List TaskEvent → Prop
  | none : FirstContext none []
  | some (dir : String) (context : ContextHandle) :
      FirstContext (some dir) [⟨createContext (some (createParams dir)), .ok context⟩]

theorem runs_connect {clientLibraryDir : Option String} {tr : List TaskEvent}
    {out : Outcome OracleError OracleConnection} :
    (connect rt authorizationMode username password connectionString
        clientLibraryDir).Runs tr out ↔
      (∃ dir info, clientLibraryDir = some dir ∧
        tr = [⟨createContext (some (createParams dir)), .error info⟩] ∧
          out = .error (.ofErrorInfo info)) ∨
      ∃ first rest, FirstContext clientLibraryDir first ∧ tr = first ++ rest ∧
        Opens rt username password connectionString rest out := by
  cases clientLibraryDir with
  | none =>
      rw [runs_connect_none]
      constructor
      · intro hopens
        exact .inr ⟨[], tr, .none, rfl, hopens⟩
      · rintro (⟨dir, info, hdir, _⟩ | ⟨first, rest, hfirst, rfl, hopens⟩)
        · cases hdir
        · cases hfirst
          exact hopens
  | some dir =>
      constructor
      · rintro ⟨created, rest, rfl, hrun⟩
        cases created with
        | error info =>
            rcases hrun with ⟨rfl, rfl⟩
            exact .inl ⟨dir, info, rfl, rfl, rfl⟩
        | ok context =>
            have hopens := (runs_connect_none authorizationMode).mp hrun
            exact .inr ⟨_, rest, .some dir context, rfl, hopens⟩
      · rintro (⟨dir', info, hdir, rfl, rfl⟩ | ⟨first, rest, hfirst, rfl, hopens⟩)
        · cases hdir
          exact ⟨.error info, [], rfl, rfl, rfl⟩
        · cases hfirst with
          | some _ context =>
              have hrun := (runs_connect_none authorizationMode).mpr hopens
              exact ⟨.ok context, rest, rfl, hrun⟩

theorem runs_connect_value {clientLibraryDir : Option String} {tr : List TaskEvent}
    {connection : OracleConnection}
    (hrun : (connect rt authorizationMode username password connectionString
      clientLibraryDir).Runs tr (.value connection)) :
    ∃ first context handle u p c, FirstContext clientLibraryDir first ∧
      tr = first ++ [⟨createContext none, .ok context⟩, ⟨createConn context u p c, some handle⟩] ∧
        connection = ⟨some handle, some context⟩ := by
  obtain ⟨_, _, _, _, hout⟩ | ⟨first, rest, hfirst, rfl, hopens⟩ :=
    (runs_connect authorizationMode).mp hrun
  · cases hout
  · cases hopens with
    | connected context handle _ _ _ =>
        exact ⟨first, context, handle, _, _, _, hfirst, rfl, rfl⟩

theorem forall_mem_connect {P : TaskEvent → Prop} {clientLibraryDir : Option String}
    {tr : List TaskEvent} {out : Outcome OracleError OracleConnection}
    (hrun : (connect rt authorizationMode username password connectionString
      clientLibraryDir).Runs tr out)
    (hcontext : ∀ params reply, P ⟨createContext params, reply⟩)
    (hconn : ∀ context u p c reply, stringArgument rt username = .value u →
      stringArgument rt password = .value p → stringArgument rt connectionString = .value c →
        P ⟨createConn context u p c, reply⟩)
    (herror : ∀ context info, P ⟨.dpi (.contextGetError context), info⟩) : ∀ e ∈ tr, P e := by
  obtain ⟨dir, info, _, rfl, _⟩ | ⟨first, rest, hfirst, rfl, hopens⟩ :=
    (runs_connect authorizationMode).mp hrun
  · exact List.forall_mem_singleton.mpr (hcontext _ _)
  · rw [List.forall_mem_append]
    constructor
    · cases hfirst with
      | none => exact List.forall_mem_nil _
      | some dir context => exact List.forall_mem_singleton.mpr (hcontext _ _)
    · cases hopens with
      | noContext info => exact List.forall_mem_singleton.mpr (hcontext _ _)
      | tooLong context _ => exact List.forall_mem_singleton.mpr (hcontext _ _)
      | refused context info hu hp hc =>
          rw [List.forall_mem_cons, List.forall_mem_cons, List.forall_mem_singleton]
          exact ⟨hcontext _ _, hconn _ _ _ _ _ hu hp hc, herror _ _⟩
      | connected context handle hu hp hc =>
          rw [List.forall_mem_cons, List.forall_mem_singleton]
          exact ⟨hcontext _ _, hconn _ _ _ _ _ hu hp hc⟩

theorem firstContext_exists (clientLibraryDir : Option String) :
    ∃ first, FirstContext clientLibraryDir first := by
  cases clientLibraryDir with
  | none => exact ⟨[], .none⟩
  | some dir => exact ⟨_, .some dir ⟨0⟩⟩

end OracleNIO.ConnectRuns
