import OracleNIO.BoundValues
import OracleNIO.TaskOperations

/-!
The release of statement handles and variables by the task of a query, for all
replies of ODPI-C: the statement is released at the end of the rows and nowhere else.
-/

namespace OracleNIO.HandleRelease

open Interaction Prog SwiftRuntime ByteMemory Dpi OracleConnection

/-- The statement that the call has prepared. -/
def prepared? : TaskEvent → Option StmtHandle
  | ⟨.dpi (.connPrepareStmt _ _), reply⟩ => reply
  | _ => none

/-- The variable that the call has created. -/
def created? : TaskEvent → Option VarHandle
  | ⟨.dpi (.connNewVar _ _ _ _ _ _ _), reply⟩ => reply
  | _ => none

/-- The statement that the call releases. -/
def released? : TaskEvent → Option StmtHandle
  | ⟨.dpi (.stmtRelease stmt), _⟩ => some stmt
  | _ => none

/-- The variable that the call releases. -/
def varReleased? : TaskEvent → Option VarHandle
  | ⟨.dpi (.varRelease var), _⟩ => var
  | _ => none

/-- Every handle obtained is passed to its release function. -/
def NoLeak (tr : List TaskEvent) : Prop :=
  (∀ stmt ∈ tr.filterMap prepared?, stmt ∈ tr.filterMap released?) ∧
    ∀ var ∈ tr.filterMap created?, var ∈ tr.filterMap varReleased?

instance (tr : List TaskEvent) : Decidable (NoLeak tr) :=
  inferInstanceAs (Decidable (_ ∧ _))

/-- The guard behind a call lets the code go on.  For `dpiConn_newVar` it is failure
that does; what the release of the statement returns does not matter any more. -/
def Passes : TaskEvent → Prop
  | ⟨.dpi (.connNewVar _ _ _ _ _ _ _), reply⟩ => reply = (none : Option VarHandle)
  | ⟨.dpi (.stmtRelease _), _⟩ => True
  | ⟨.dpi c, reply⟩ => c.succeeded reply = true
  | _ => True

/-- The value of a column can be decoded. -/
def Readable (value : QueryValue) (info : QueryInfo) : Prop :=
  ∃ data, value.data = some data ∧ ∀ e : OracleError,
    OracleStatement.columnData value.nativeType info.typeInfo data value.memory ≠ .error e

/-- A value is decoded when the info of its column has been read right after it. -/
def Decodes (e e' : TaskEvent) : Prop :=
  ∀ stmt pos value info, e = ⟨.dpi (.stmtGetQueryValue stmt pos), some value⟩ →
    e' = ⟨.dpi (.stmtGetQueryInfo stmt pos), some info⟩ → Readable value info

/-- No call of the run fails, and what it reads can be decoded. -/
structure GoesWell (tr : List TaskEvent) : Prop where
  passes : ∀ e ∈ tr, Passes e
  decodes : tr.IsChain Decodes

theorem goesWell_snoc {tr : List TaskEvent} {e : TaskEvent} :
    GoesWell (tr ++ [e]) ↔ GoesWell tr ∧ Passes e ∧ ∀ x ∈ tr.getLast?, Decodes x e := by
  constructor
  · rintro ⟨hpasses, hdecodes⟩
    rw [List.isChain_append] at hdecodes
    refine ⟨⟨fun x hx => hpasses x (List.mem_append_left _ hx), hdecodes.1⟩,
      hpasses e (by simp), fun x hx => hdecodes.2.2 x hx e rfl⟩
  · rintro ⟨⟨hpasses, hdecodes⟩, he, hlast⟩
    constructor
    · intro x hx
      rcases List.mem_append.mp hx with hx | hx
      · exact hpasses x hx
      · rw [List.mem_singleton.mp hx]
        exact he
    · rw [List.isChain_append]
      refine ⟨hdecodes, List.isChain_singleton e, ?_⟩
      rintro x hx y ⟨⟩
      exact hlast x hx

theorem decodes_of_ne {e e' : TaskEvent}
    (h : ∀ stmt pos, e'.op ≠ .dpi (.stmtGetQueryInfo stmt pos)) : Decodes e e' := by
  rintro stmt pos value info - rfl
  exact absurd rfl (h stmt pos)

theorem created_eq_nil {tr : List TaskEvent} (h : GoesWell tr) :
    tr.filterMap created? = [] := by
  rw [List.filterMap_eq_nil_iff]
  intro e he
  have hpasses := h.passes e he
  rcases e with ⟨op, reply⟩
  cases op with
  | dpi c =>
      cases c with
      | connNewVar _ _ _ _ _ _ _ => exact hpasses
      | _ => rfl
  | _ => rfl

/-- Whether a handle is leaked is decided by how the operations have gone. -/
def Judged (tr : List TaskEvent) : Prop :=
  NoLeak tr ↔ tr.filterMap prepared? = [] ∨ GoesWell tr

/-- The statement has been obtained and not been released, and nothing has failed. -/
structure Live (stmt : StmtHandle) (tr : List TaskEvent) : Prop where
  prepared : tr.filterMap prepared? = [stmt]
  released : tr.filterMap released? = []
  goesWell : GoesWell tr
  settled : ∀ e ∈ tr.getLast?, ∀ stmt pos, e.op ≠ .dpi (.stmtGetQueryValue stmt pos)

theorem judged_idle {tr : List TaskEvent} (hprepared : tr.filterMap prepared? = [])
    (hcreated : tr.filterMap created? = []) : Judged tr := by
  constructor
  · intro _
    exact .inl hprepared
  · intro _
    refine ⟨?_, ?_⟩
    · rw [hprepared]
      simp
    · rw [hcreated]
      simp

theorem judged_failed {stmt : StmtHandle} {tr : List TaskEvent}
    (hprepared : tr.filterMap prepared? = [stmt]) (hreleased : tr.filterMap released? = [])
    (hbad : ¬ GoesWell tr) : Judged tr := by
  constructor
  · rintro ⟨hstmt, _⟩
    rw [hprepared, hreleased] at hstmt
    simp at hstmt
  · rintro (hnone | hgood)
    · rw [hprepared] at hnone
      cases hnone
    · exact absurd hgood hbad

theorem judged_released {stmt : StmtHandle} {tr : List TaskEvent}
    (hprepared : tr.filterMap prepared? = [stmt])
    (hreleased : tr.filterMap released? = [stmt]) (hgood : GoesWell tr) : Judged tr := by
  constructor
  · intro _
    exact .inr hgood
  · intro _
    refine ⟨?_, ?_⟩
    · rw [hprepared, hreleased]
      exact fun _ h => h
    · rw [created_eq_nil hgood]
      simp

/-- Operations that touch no handle and cannot fail. -/
def Neutral : Op → Bool
  | .dpi (.contextGetError _) => true
  | .dpi _ => false
  | _ => true

/-- Operations that neither obtain nor release a statement and read no value. -/
def Calm : Op → Bool
  | .dpi (.connPrepareStmt _ _) => false
  | .dpi (.stmtRelease _) => false
  | .dpi (.stmtGetQueryValue _ _) => false
  | _ => true

theorem neutral_event {op : Op} (hop : Neutral op = true) (reply : op.Reply) :
    Passes ⟨op, reply⟩ ∧ prepared? ⟨op, reply⟩ = none ∧ created? ⟨op, reply⟩ = none ∧
      released? ⟨op, reply⟩ = none ∧ varReleased? ⟨op, reply⟩ = none := by
  cases op with
  | dpi c =>
      cases c with
      | contextGetError _ => exact ⟨rfl, rfl, rfl, rfl, rfl⟩
      | _ => cases hop
  | _ => exact ⟨trivial, rfl, rfl, rfl, rfl⟩

theorem calm_event {op : Op} (hop : Calm op = true) (reply : op.Reply) :
    prepared? ⟨op, reply⟩ = none ∧ released? ⟨op, reply⟩ = none := by
  cases op with
  | dpi c =>
      cases c with
      | connPrepareStmt _ _ => cases hop
      | stmtRelease _ => cases hop
      | _ => exact ⟨rfl, rfl⟩
  | _ => exact ⟨rfl, rfl⟩

theorem filterMap_snoc {α : Type} {f : TaskEvent → Option α} {tr : List TaskEvent}
    {e : TaskEvent} (h : f e = none) : (tr ++ [e]).filterMap f = tr.filterMap f := by
  rw [List.filterMap_append, List.filterMap_cons_none h, List.filterMap_nil, List.append_nil]

theorem judged_snoc {tr : List TaskEvent} (h : Judged tr) (op : Op) (hop : Neutral op = true)
    (reply : op.Reply) : Judged (tr ++ [⟨op, reply⟩]) := by
  obtain ⟨hpasses, hprepared, hcreated, hreleased, hvar⟩ := neutral_event hop reply
  have hgood : GoesWell (tr ++ [⟨op, reply⟩]) ↔ GoesWell tr := by
    rw [goesWell_snoc]
    constructor
    · exact fun h => h.1
    · refine fun h => ⟨h, hpasses, fun x _ => decodes_of_ne ?_⟩
      rintro stmt pos rfl
      cases hop
  rw [Judged, NoLeak, filterMap_snoc hprepared, filterMap_snoc hcreated,
    filterMap_snoc hreleased, filterMap_snoc hvar, hgood]
  exact h

section Live

variable {stmt : StmtHandle} {tr : List TaskEvent}

theorem Live.snoc (h : Live stmt tr) (op : Op) (hop : Calm op = true) (reply : op.Reply)
    (hreply : Passes ⟨op, reply⟩) : Live stmt (tr ++ [⟨op, reply⟩]) := by
  obtain ⟨hprepared, hreleased⟩ := calm_event hop reply
  refine ⟨?_, ?_, ?_, ?_⟩
  · rw [filterMap_snoc hprepared]
    exact h.prepared
  · rw [filterMap_snoc hreleased]
    exact h.released
  · rw [goesWell_snoc]
    refine ⟨h.goesWell, hreply, ?_⟩
    rintro x hx stmt pos value info rfl
    exact absurd rfl (h.settled _ hx stmt pos)
  · rw [List.getLast?_append]
    rintro e ⟨⟩ stmt pos rfl
    cases hop

theorem Live.judged_snoc (h : Live stmt tr) {op : Op} {reply : op.Reply}
    (hprepared : prepared? ⟨op, reply⟩ = none) (hreleased : released? ⟨op, reply⟩ = none)
    (hreply : ¬ Passes ⟨op, reply⟩) : Judged (tr ++ [⟨op, reply⟩]) := by
  apply judged_failed ((filterMap_snoc hprepared).trans h.prepared)
    ((filterMap_snoc hreleased).trans h.released)
  rw [goesWell_snoc]
  exact fun h => hreply h.2.1

/-- The program goes on with the statement live, or throws at a judged history. -/
def Keeps {α : Type} (stmt : StmtHandle) (Q : α → Prop) (p : Task α) : Prop :=
  ∀ tr, Live stmt tr → p.wp .free (fun a tr' => Q a ∧ Live stmt tr') (fun _ => Judged) tr

/-- The program does not return, and keeps the operations judged. -/
def Fails {α : Type} (p : Task α) : Prop :=
  ∀ tr, Judged tr → p.wp .free (fun _ _ => False) (fun _ => Judged) tr

variable {α β : Type} {Q : α → Prop} {R : β → Prop}

theorem Fails.wp {p : Task α} (hp : Fails p) (htr : Judged tr)
    {Q : α → List TaskEvent → Prop} : p.wp .free Q (fun _ => Judged) tr :=
  wp_mono (fun _ _ h => False.elim h) (fun _ _ h => h) (hp tr htr)

theorem fails_throwLast : Fails (throwLast : Task α) := by
  intro tr htr
  refine ⟨trivial, fun context => ?_⟩
  have htr : Judged (tr ++ [⟨.readContext, context⟩]) := judged_snoc htr .readContext rfl context
  cases context with
  | none => exact htr
  | some context =>
      refine ⟨trivial, fun info => ?_⟩
      exact judged_snoc htr (.dpi (.contextGetError (some context))) rfl info

theorem fails_bind {p : Task α} (hp : Fails p) (f : α → Task β) : Fails (p >>= f) := by
  intro tr htr
  apply wp_seq (hp tr htr)
  intro a tr' h
  exact h.elim

theorem keeps_pure {a : α} (ha : Q a) : Keeps stmt Q (Prog.pure a : Task α) :=
  fun _ htr => ⟨ha, htr⟩

theorem keeps_bind {p : Task α} {f : α → Task β} (hp : Keeps stmt Q p)
    (hf : ∀ a, Q a → Keeps stmt R (f a)) : Keeps stmt R (p >>= f) := by
  intro tr htr
  apply wp_seq (hp tr htr)
  rintro a tr' ⟨ha, htr'⟩
  exact hf a ha tr' htr'

theorem keeps_ofOutcome {o : Outcome OracleError α} (ho : ∀ e, o ≠ .error e)
    (hvalue : ∀ a, o = .value a → Q a) : Keeps stmt Q (ofOutcome o : Task α) := by
  cases o with
  | value a => exact keeps_pure (hvalue a rfl)
  | error e => exact absurd rfl (ho e)
  | trap => exact fun _ _ => trivial

theorem keeps_ofOutcome_bind {o : Outcome OracleError α} {f : α → Task β}
    (ho : ∀ e, o ≠ .error e) (hf : ∀ a, o = .value a → Keeps stmt R (f a)) :
    Keeps stmt R (ofOutcome o >>= f) :=
  keeps_bind (keeps_ofOutcome ho fun _ h => h) hf

theorem keeps_collect {ι : Type} {f : ι → Task α}
    (hf : ∀ x, Keeps stmt (fun _ => True) (f x)) (xs : List ι) :
    Keeps stmt (fun _ => True) (collect f xs) := by
  intro tr htr
  apply wp_mono (fun _ _ h => ⟨trivial, h⟩) (fun _ _ h => h)
  apply wp_collect ?_ htr
  intro x _ tr htr
  exact wp_mono (fun _ _ h => h.2) (fun _ _ h => h) (hf x tr htr)

theorem keeps_perform_bind (op : Op) (hop : Calm op = true) {f : op.Reply → Task α}
    (hpass : ∀ reply, Passes ⟨op, reply⟩ → Keeps stmt Q (f reply))
    (hfail : ∀ reply, ¬ Passes ⟨op, reply⟩ → Fails (f reply)) :
    Keeps stmt Q (perform op >>= f) := by
  intro tr htr
  refine ⟨trivial, fun reply => ?_⟩
  by_cases hreply : Passes ⟨op, reply⟩
  · exact hpass reply hreply _ (htr.snoc op hop reply hreply)
  · obtain ⟨hprepared, hreleased⟩ := calm_event hop reply
    exact (hfail reply hreply).wp (htr.judged_snoc hprepared hreleased hreply)

theorem keeps_guarded (op : Op) (hop : Calm op = true) {reply? : op.Reply → Option β}
    (hreply : ∀ reply, Passes ⟨op, reply⟩ ↔ (reply? reply).isSome = true) {f : β → Task α}
    (hf : ∀ b, Keeps stmt Q (f b)) :
    Keeps stmt Q (perform op >>= fun reply => orThrowLast (reply? reply) >>= f) := by
  apply keeps_perform_bind op hop
  · intro reply hpass
    obtain ⟨b, hb⟩ := Option.isSome_iff_exists.mp ((hreply reply).mp hpass)
    rw [hb]
    exact hf b
  · intro reply hfail
    rw [hreply, Option.not_isSome_iff_eq_none] at hfail
    rw [hfail]
    exact fails_bind fails_throwLast f

end Live

section Statement

variable {statement : OracleStatement}

theorem stringArgument_ne_error (rt : Runtime) (s : String) (e : OracleError) :
    stringArgument rt s ≠ .error e := by
  unfold stringArgument
  cases hlength : (uint32 (rt.count s) : Outcome OracleError UInt32) with
  | value length => simp [Bind.bind, Outcome.bind, Pure.pure]
  | error e => exact absurd hlength uint32_ne_error
  | trap => simp [Bind.bind, Outcome.bind]

theorem keeps_bindValueByPos (pos : UInt32) (nativeType : NativeType) (data : DpiData)
    (memory : List UInt8) :
    Keeps statement.handle (fun s => s.handle = statement.handle)
      (statement.bindValueByPos pos nativeType data memory) := by
  apply keeps_guarded _ rfl (fun _ => Iff.rfl)
  intro _
  exact keeps_pure rfl

theorem keeps_bindValue (rt : Runtime) (pos : UInt32) (value : OracleData) :
    Keeps statement.handle (fun s => s.handle = statement.handle)
      (statement.bindValue rt pos value) := by
  cases value with
  | integer v => exact keeps_bindValueByPos _ _ _ _
  | float v => exact keeps_bindValueByPos _ _ _ _
  | double v => exact keeps_bindValueByPos _ _ _ _
  | text v =>
      apply keeps_ofOutcome_bind (stringArgument_ne_error rt v)
      intro arg _
      exact keeps_bindValueByPos _ _ _ _
  | timestamp v =>
      apply keeps_perform_bind .now rfl
      · intro now _
        apply keeps_ofOutcome_bind (BoundValues.encodeTimestamp_ne_error rt v _)
        intro timestamp _
        exact keeps_bindValueByPos _ _ _ _
      · intro now hnow
        exact absurd trivial hnow
  | blob v => exact keeps_bindValueByPos _ _ _ _
  | null => exact keeps_bindValueByPos _ _ _ _
  | raw v =>
      apply keeps_perform_bind .readHandle rfl
      · intro conn _
        apply keeps_ofOutcome_bind fun _ => uint32_ne_error
        intro size _
        apply keeps_perform_bind (.dpi (.connNewVar conn .raw .bytes 0 size true false)) rfl
        · rintro var rfl
          apply keeps_guarded (.dpi (.stmtBindByPos statement.handle pos none)) rfl
            (fun _ => Iff.rfl)
          intro _
          exact keeps_pure rfl
        · intro var hvar
          cases var with
          | none => exact absurd rfl hvar
          | some var => exact fails_throwLast
      · intro conn hconn
        exact absurd trivial hconn

theorem keeps_bindFrom (rt : Runtime) {stmt : StmtHandle} (hstmt : statement.handle = stmt)
    (i : Nat) (values : List OracleData) :
    Keeps stmt (fun s => s.handle = stmt) (statement.bindFrom rt i values) := by
  induction values generalizing statement i with
  | nil => exact keeps_pure hstmt
  | cons value values ih =>
      subst hstmt
      unfold OracleStatement.bindFrom
      apply keeps_ofOutcome_bind fun _ => uint32_ne_error
      intro pos _
      apply keeps_bind (keeps_bindValue rt pos value)
      intro statement' hstatement'
      exact ih hstatement' (i + 1)

theorem keeps_execute : Keeps statement.handle (fun _ => True) statement.execute := by
  apply keeps_guarded _ rfl (fun _ => Iff.rfl)
  intro _
  exact keeps_pure trivial

theorem columnPosition_ne_error (i : Nat) (e : OracleError) :
    OracleStatement.columnPosition i ≠ .error e := by
  unfold OracleStatement.columnPosition
  by_cases h : -2147483648 ≤ ((i + 1 : Nat) : Int) ∧ ((i + 1 : Nat) : Int) ≤ 2147483647
  · obtain ⟨offset, hoffset, _⟩ := int32_of_range OracleError _ h
    rw [hoffset]
    exact uint32_ne_error
  · rw [int32_trap h]
    simp [Bind.bind, Outcome.bind]

theorem stringOfCString_ne_error (memory : List UInt8) (ptr : Nat) (e : OracleError) :
    stringOfCString memory ptr ≠ .error e := by
  unfold stringOfCString
  split <;> simp

theorem keeps_column (i : Nat) :
    Keeps statement.handle (fun _ => True) (statement.column i) := by
  apply keeps_ofOutcome_bind (columnPosition_ne_error i)
  intro pos _
  apply keeps_guarded (.dpi (.stmtGetQueryInfo statement.handle pos)) rfl
    (fun _ => Iff.rfl)
  intro queryInfo
  exact keeps_ofOutcome (stringOfCString_ne_error _ _) fun _ _ => trivial

theorem keeps_columns : Keeps statement.handle (fun _ => True) statement.columns := by
  apply keeps_guarded (.dpi (.stmtGetNumQueryColumns statement.handle)) rfl
    (fun _ => Iff.rfl)
  intro count
  apply keeps_bind (keeps_collect keeps_column _)
  intro names _
  exact keeps_pure trivial

theorem goesWell_read {stmt : StmtHandle} {tr : List TaskEvent} (h : Live stmt tr)
    (stmt' : StmtHandle) (pos : UInt32) (value : QueryValue) (info : QueryInfo) :
    GoesWell (tr ++ [⟨.dpi (.stmtGetQueryValue stmt' pos), some value⟩] ++
        [⟨.dpi (.stmtGetQueryInfo stmt' pos), some info⟩]) ↔ Readable value info := by
  rw [goesWell_snoc, goesWell_snoc]
  constructor
  · rintro ⟨_, _, hdecodes⟩
    exact hdecodes _ (by simp) stmt' pos value info rfl rfl
  · intro hread
    refine ⟨⟨h.goesWell, rfl, fun x _ => decodes_of_ne (by simp)⟩, rfl, ?_⟩
    rw [List.getLast?_append]
    rintro x ⟨⟩ stmt₁ pos₁ value₁ info₁ hvalue hinfo
    cases hvalue
    cases hinfo
    exact hread

theorem Live.frame {stmt : StmtHandle} {tr : List TaskEvent} (h : Live stmt tr)
    (e₁ e₂ : TaskEvent) (h₁ : prepared? e₁ = none ∧ released? e₁ = none)
    (h₂ : prepared? e₂ = none ∧ released? e₂ = none) :
    (tr ++ [e₁] ++ [e₂]).filterMap prepared? = [stmt] ∧
      (tr ++ [e₁] ++ [e₂]).filterMap released? = [] := by
  rw [filterMap_snoc h₂.1, filterMap_snoc h₁.1, filterMap_snoc h₂.2, filterMap_snoc h₁.2]
  exact ⟨h.prepared, h.released⟩

theorem keeps_data (i : Nat) : Keeps statement.handle (fun _ => True) (statement.data i) := by
  apply keeps_ofOutcome_bind (columnPosition_ne_error i)
  intro pos _ tr htr
  refine ⟨trivial, fun reply => ?_⟩
  cases reply with
  | none =>
      apply (fails_bind fails_throwLast _).wp
      exact htr.judged_snoc rfl rfl (by simp [Passes, DpiCall.succeeded])
  | some value =>
      -- whether the value can be decoded is not settled before the info of its column
      refine ⟨trivial, fun reply => ?_⟩
      obtain ⟨hprepared, hreleased⟩ := htr.frame
        ⟨.dpi (.stmtGetQueryValue statement.handle pos), some value⟩
        ⟨.dpi (.stmtGetQueryInfo statement.handle pos), reply⟩ ⟨rfl, rfl⟩ ⟨rfl, rfl⟩
      cases reply with
      | none =>
          apply (fails_bind fails_throwLast _).wp
          apply judged_failed hprepared hreleased
          rw [goesWell_snoc]
          rintro ⟨_, hpasses, _⟩
          cases hpasses
      | some info =>
          have hread := goesWell_read htr statement.handle pos value info
          cases hdata : value.data with
          | none =>
              apply fails_throwLast.wp
              apply judged_failed hprepared hreleased
              rw [hread]
              rintro ⟨data, hsome, _⟩
              rw [hdata] at hsome
              cases hsome
          | some data =>
              change (ofOutcome (OracleStatement.columnData value.nativeType info.typeInfo data
                value.memory)).wp _ _ _ _
              cases hcolumn : OracleStatement.columnData value.nativeType
                  info.typeInfo data value.memory with
              | value a =>
                  refine ⟨trivial, hprepared, hreleased, hread.mpr ⟨data, hdata, ?_⟩, ?_⟩
                  · simp [hcolumn]
                  · simp
              | error e =>
                  apply judged_failed hprepared hreleased
                  rw [hread]
                  rintro ⟨data', hdata', hne⟩
                  rw [hdata] at hdata'
                  cases hdata'
                  exact hne e hcolumn
              | trap => trivial

theorem wp_cleanup {tr : List TaskEvent} (htr : Live statement.handle tr) :
    statement.cleanup.wp .free (fun _ => Judged) (fun _ => Judged) tr := by
  have hvars : Keeps statement.handle (fun _ => True)
      (collect (fun var => do orThrowLast (← dpi (.varRelease var))) statement.vars) := by
    apply keeps_collect
    intro var
    apply keeps_perform_bind (.dpi (.varRelease var)) rfl
    · intro reply hreply
      cases reply with
      | none => cases hreply
      | some _ => exact keeps_pure trivial
    · intro reply hreply
      cases reply with
      | none => exact fails_throwLast
      | some _ => exact absurd rfl hreply
  apply wp_seq (hvars tr htr)
  rintro _ tr ⟨_, htr⟩
  refine ⟨trivial, fun reply => ?_⟩
  have hjudged : Judged (tr ++ [⟨.dpi (.stmtRelease statement.handle), reply⟩]) := by
    apply judged_released ((filterMap_snoc rfl).trans htr.prepared)
    · rw [List.filterMap_append, htr.released]
      rfl
    · rw [goesWell_snoc]
      exact ⟨htr.goesWell, trivial, fun x _ => decodes_of_ne (by simp)⟩
  cases reply with
  | none => exact fails_throwLast.wp hjudged
  | some _ => exact hjudged

theorem wp_nextRow (columns : OracleColumnOffsets) {tr : List TaskEvent}
    (htr : Live statement.handle tr) :
    (statement.nextRow columns).wp .free
      (fun row tr' => (row = none → Judged tr') ∧ (row ≠ none → Live statement.handle tr'))
      (fun _ => Judged) tr := by
  refine ⟨trivial, fun reply => ?_⟩
  cases reply with
  | none =>
      apply (fails_bind fails_throwLast _).wp
      exact htr.judged_snoc rfl rfl (by simp [Passes, DpiCall.succeeded])
  | some fetched =>
      have htr := htr.snoc (.dpi (.stmtFetch statement.handle)) rfl (some fetched) rfl
      change (if fetched.found = 0 then _ else _ : Task (Option OracleRow)).wp _ _ _ _
      split
      · apply wp_seq (wp_cleanup htr)
        intro _ tr htr
        exact ⟨fun _ => htr, fun h => absurd rfl h⟩
      · have hrow : Keeps statement.handle (fun row => row ≠ none) (do
            let count ← orThrowLast (← dpi (.stmtGetNumQueryColumns statement.handle))
            let row ← Prog.collect statement.data (List.range count.toNat)
            return some ⟨columns, row⟩ : Task (Option OracleRow)) := by
          apply keeps_guarded (.dpi (.stmtGetNumQueryColumns statement.handle)) rfl
            (fun _ => Iff.rfl)
          intro count
          apply keeps_bind (keeps_collect keeps_data _)
          intro row _
          exact keeps_pure (by simp)
        apply wp_mono _ (fun _ _ h => h) (hrow _ htr)
        rintro row tr ⟨hrow, htr⟩
        exact ⟨fun h => absurd h hrow, fun _ => htr⟩

end Statement

section Query

theorem wp_init (rt : Runtime) (query : String) :
    (OracleStatement.init rt query).wp .free (fun statement => Live statement.handle)
      (fun _ => Judged) [] := by
  refine ⟨trivial, fun conn => ?_⟩
  cases conn with
  | none => exact judged_idle rfl rfl
  | some conn =>
      change (ofOutcome (stringArgument rt query) >>= _).wp _ _ _ _
      cases hsql : stringArgument rt query with
      | value sql =>
          refine ⟨trivial, fun handle => ?_⟩
          cases handle with
          | none => exact (fails_bind fails_throwLast _).wp (judged_idle rfl rfl)
          | some handle =>
              refine ⟨rfl, rfl, ⟨?_, ?_⟩, ?_⟩
              · simp [Passes, DpiCall.succeeded]
              · exact .cons_cons (decodes_of_ne (by simp)) (List.isChain_singleton _)
              · simp
      | error e => exact absurd hsql (stringArgument_ne_error rt query e)
      | trap => trivial

theorem wp_prepare (rt : Runtime) (q : OracleQuery) :
    (prepare rt q).wp .free (fun prepared => Live prepared.1.handle) (fun _ => Judged) [] := by
  apply wp_seq (wp_init rt q.sql)
  intro statement tr htr
  apply wp_seq (keeps_bindFrom rt rfl 0 q.binds.values tr htr)
  rintro bound tr ⟨hbound, htr⟩
  rw [← hbound] at htr
  apply wp_seq (keeps_execute tr htr)
  rintro _ tr ⟨_, htr⟩
  apply wp_seq (keeps_columns tr htr)
  rintro columns tr ⟨_, htr⟩
  exact htr

/-- The state of the loop after these operations. -/
def Started : QueryState → List TaskEvent → Prop
  | .begin _, tr => tr = []
  | .rows statement _ _, tr => Live statement.handle tr

theorem wp_failPromise (e : OracleError) {tr : List TaskEvent} (htr : Judged tr) :
    (failPromise e).wp .free (loopPost Started fun _ => Judged) (fun _ _ => False) tr :=
  ⟨trivial, fun reply => judged_snoc htr (.promiseFail e) rfl reply⟩

theorem wp_step (statement : OracleStatement) (columns : OracleColumnOffsets)
    (callbacks : List Nat) {tr : List TaskEvent} (htr : Live statement.handle tr) :
    (step statement columns callbacks).wp .free (loopPost Started fun _ => Judged)
      (fun _ => Judged) tr := by
  apply wp_seq (wp_nextRow columns htr)
  rintro row tr ⟨hend, hrow⟩
  cases row with
  | some row =>
      refine ⟨trivial, fun callback => ?_⟩
      exact (hrow (by simp)).snoc (.submitRow row) rfl callback trivial
  | none =>
      refine ⟨trivial, fun all => ⟨trivial, fun reply => ?_⟩⟩
      exact judged_snoc (judged_snoc (hend rfl) (.andAllSucceed callbacks) rfl all)
        (.cascade all) rfl reply

theorem wp_query (rt : Runtime) (x : QueryState) {tr : List TaskEvent} (hx : Started x tr) :
    (query rt x).wp .free (loopPost Started fun _ => Judged) (fun _ _ => False) tr := by
  cases x with
  | «begin» q =>
      cases hx
      unfold query
      rw [wp_tryCatch]
      apply wp_mono (fun _ _ h => h) (fun e _ h => wp_failPromise e h)
      apply wp_seq (wp_prepare rt q)
      intro prepared tr htr
      exact htr
  | rows statement columns callbacks =>
      unfold query
      rw [wp_tryCatch]
      exact wp_mono (fun _ _ h => h) (fun e _ h => wp_failPromise e h)
        (wp_step statement columns callbacks hx)

/-- At the end of the task no handle is left exactly if none was obtained, or the code
was let through every guard before the release and decoded every value. -/
theorem noLeak_iff (rt : Runtime) (q : OracleQuery) {tr : List TaskEvent}
    {out : Outcome OracleError Unit} (hrun : LoopRuns (query rt) (.begin q) tr out)
    (hout : out ≠ .trap) :
    NoLeak tr ↔ tr.filterMap prepared? = [] ∨ GoesWell tr := by
  have hholds := wp_loopRuns (c := .free) (I := Started) (Q := fun _ => Judged)
    (E := fun _ _ => False) (fun x tr hx => wp_query rt x hx) hrun rfl
  cases out with
  | value _ => exact hholds
  | error e => exact hholds.elim
  | trap => exact absurd rfl hout

def select : OracleQuery := ⟨"SELECT 1", ⟨[]⟩⟩

def selectArgument : StringArgument := ⟨utf8 "SELECT 1" ++ [0], 8⟩

theorem selectArgument_eq :
    stringArgument asciiRuntime select.sql = .value selectArgument :=
  stringArgument_of_lt (by decide)

/-- The statement has no columns and no rows. -/
def noRows : List TaskEvent :=
  [⟨.readHandle, some ⟨1⟩⟩, ⟨.dpi (.connPrepareStmt ⟨1⟩ selectArgument), some ⟨2⟩⟩,
    ⟨.dpi (.stmtExecute ⟨2⟩ 0), some (0 : UInt32)⟩,
    ⟨.dpi (.stmtGetNumQueryColumns ⟨2⟩), some (0 : UInt32)⟩,
    ⟨.dpi (.stmtFetch ⟨2⟩), some ⟨0, 0⟩⟩, ⟨.dpi (.stmtRelease ⟨2⟩), some ()⟩,
    ⟨.andAllSucceed [], (0 : Nat)⟩, ⟨.cascade 0, ()⟩]

theorem runs_noRows :
    LoopRuns (query asciiRuntime) (.begin select) noRows (.value ()) := by
  have hprepare : (prepare asciiRuntime select).Runs (noRows.take 4)
      (.value (⟨⟨2⟩, []⟩, ⟨[]⟩)) := by
    rw [prepare, OracleStatement.init_eq selectArgument_eq]
    exact ⟨_, _, rfl, _, _, rfl, _, _, rfl, _, _, rfl, rfl, rfl⟩
  have hrows : (query asciiRuntime (.rows ⟨⟨2⟩, []⟩ ⟨[]⟩ [])).Runs (noRows.drop 4)
      (.value (.inr ())) :=
    ⟨_, _, rfl, _, _, rfl, _, _, rfl, _, _, rfl, rfl, rfl⟩
  exact .again (runs_begin hprepare) (.done hrows)

theorem noLeak_noRows : NoLeak noRows ↔ noRows.filterMap prepared? = [] ∨ GoesWell noRows :=
  noLeak_iff asciiRuntime select runs_noRows (by simp)

/-- A statement that cannot be executed is not released. -/
theorem not_noLeak_execute :
    ∃ tr, LoopRuns (query asciiRuntime) (.begin select) tr (.value ()) ∧ ¬ NoLeak tr := by
  refine ⟨noRows.take 2 ++ [⟨.dpi (.stmtExecute ⟨2⟩ 0), (none : Option UInt32)⟩,
    ⟨.readContext, some ⟨3⟩⟩, ⟨.dpi (.contextGetError (some ⟨3⟩)), ⟨942, utf8 "ORA-00942", 9⟩⟩,
    ⟨.promiseFail ⟨.oracleError 942, "ORA-00942"⟩, ()⟩], ?_, ?_⟩
  · apply LoopRuns.done
    simp only [query, prepare]
    rw [OracleStatement.init_eq selectArgument_eq]
    exact ⟨_, _, rfl, _, _, rfl, _, _, rfl, _, _, rfl, _, _, rfl, _, _, rfl, rfl, rfl⟩
  · decide

end Query

end OracleNIO.HandleRelease
