import EveHorizon.EnvDb.Isolation
import EveHorizon.Library.SqlMessages

/-!
# Texts without leave to write

A text that may not write runs in a read-only transaction, which protects the database as long as
the text stays in it.
-/

namespace EveHorizon.EnvDb

open Sql (Connection Escapes readOnlyBlock settle)

abbrev SqlStatement := Sql.Statement Text Text

structure SqlServer (δ : Type) extends Sql.Server Text Text δ where
  /-- The database that a connection string names. -/
  locate : Text → Text
  /-- What making and dropping schemas makes of a database. -/
  alter : SessionStatement → δ → Option δ

inductive SqlOutcome where
  | unresolved (error : EnvDbError)
  /-- A statement failed. -/
  | failed
  | done

variable {δ : Type}

section

variable (server : SqlServer δ)

def SessionStatement.execute (stmt : SessionStatement) (connection : Connection δ) : Option (Connection δ) :=
  let transaction := connection.current
  match stmt with
  | .setReadOnly => some (connection.proceed { transaction with readOnly := true })
  | .setSearchPath _ => some connection
  | .setConfig _ _ => some (connection.proceed { transaction with queried := true })
  | .ensureSchema _ | .dropSchema _ | .createSchema _ =>
    if transaction.readOnly then none
    else (server.alter stmt transaction.contents).map fun contents =>
      connection.proceed { transaction with queried := true, contents }

/-- `client.unsafe(sql, parameters)`: without parameters the whole text is one message; with some it
is prepared, which takes one statement, and bound, which takes one that has parameters. -/
def send (text : List SqlStatement) (params : List Json) (connection : Connection δ) : Bool × Connection δ :=
  if params = [] then Sql.runMessage server.toServer text connection
  else
    match text with
    | [.read query] => Sql.runMessage server.toServer [.read query] connection
    | [.write change] => Sql.runMessage server.toServer [.write change] connection
    | _ => (false, connection.rollback)

def beginBlock (contents : δ) : Connection δ where
  committed := contents
  transaction := some { block := true, readOnly := false, queried := false, contents }

variable (catalog : Catalog) (groupsOf : String → PrincipalType → Text → List Text)

def executeSql (projectId : String) (envName : Text) (text : List SqlStatement)
    (params : Option (List Json)) (allowWrite : Bool) (context : DbContext) (databases : Text → δ) :
    SqlOutcome × (Text → δ) :=
  match resolveEnvDb catalog projectId envName with
  | .error error => (.unresolved error, databases)
  | .ok resolved =>
    let sessionContext := enrichContext groupsOf context resolved.orgId
    let database := server.locate resolved.config.url
    let opened := beginBlock (databases database)
    let session := openSession resolved.config sessionContext allowWrite false
    let result :=
      match session.foldlM (fun found stmt => stmt.execute server found) opened with
      | none => (false, opened.rollback)
      | some prepared => send server text (params.getD []) prepared
    (if result.1 then .done else .failed,
      fun name => if name = database then (settle result).committed else databases name)

end

theorem execute_settings {server : SqlServer δ} {statements : List SessionStatement}
    (settings : ∀ stmt ∈ statements, ∃ setting value, stmt = .setConfig setting value)
    (nonempty : statements ≠ []) (connection : Connection δ) :
    statements.foldlM (fun found stmt => stmt.execute server found) connection =
      some (connection.proceed { connection.current with queried := true }) := by
  induction statements generalizing connection with
  | nil => exact absurd rfl nonempty
  | cons head rest inductionHypothesis =>
    obtain ⟨setting, value, rfl⟩ := settings head List.mem_cons_self
    rw [List.foldlM_cons]
    change rest.foldlM _ (connection.proceed { connection.current with queried := true }) = _
    by_cases last : rest = []
    · rw [last]
      rfl
    · exact inductionHypothesis (fun stmt member => settings stmt (List.mem_cons_of_mem _ member)) last _

theorem applySessionContext_ne_nil (groupsOf : String → PrincipalType → Text → List Text)
    (context : DbContext) (orgId : String) : applySessionContext (enrichContext groupsOf context orgId) ≠ [] := by
  intro empty
  simp [applySessionContext, enrichContext] at empty

theorem execute_openSession (server : SqlServer δ) (config : EnvDbConfig)
    (groupsOf : String → PrincipalType → Text → List Text) (context : DbContext) (orgId : String) (contents : δ) :
    (openSession config (enrichContext groupsOf context orgId) false false).foldlM
        (fun found stmt => stmt.execute server found) (beginBlock contents) =
      some (readOnlyBlock contents) := by
  have settings (connection : Connection δ) : (applySessionContext (enrichContext groupsOf context orgId)).foldlM
        (fun found stmt => stmt.execute server found) connection =
      some (connection.proceed { connection.current with queried := true }) :=
    execute_settings (fun _ => settings_applySessionContext)
      (applySessionContext_ne_nil groupsOf context orgId) connection
  unfold openSession
  cases config.schema with
  | none | some schema =>
    change (applySessionContext (enrichContext groupsOf context orgId)).foldlM _ _ = _
    rw [settings]
    rfl

variable {catalog : Catalog} {groupsOf : String → PrincipalType → Text → List Text}
  {projectId : String} {envName : Text} {text : List SqlStatement} {params : Option (List Json)}
  {context : DbContext}

theorem executeSql_eq {resolved : ResolvedEnvDb}
    (resolves : resolveEnvDb catalog projectId envName = .ok resolved) (server : SqlServer δ) (databases : Text → δ) :
    (executeSql server catalog groupsOf projectId envName text params false context databases).2 = fun name =>
        if name = server.locate resolved.config.url then (settle (send server text (params.getD [])
            (readOnlyBlock (databases (server.locate resolved.config.url))))).committed else databases name := by
  unfold executeSql
  rw [resolves]
  dsimp only
  rw [execute_openSession]

theorem settle_send_of_params (server : SqlServer δ) {values : List Json} (prepared : values ≠ []) (contents : δ) :
    (settle (send server text values (readOnlyBlock contents))).committed = contents := by
  have harmless (stmt : SqlStatement) (goesOn : ¬ stmt.Ends) :
      (settle (Sql.runMessage server.toServer [stmt] (readOnlyBlock contents))).committed =
        contents := by
    by_contra differ
    obtain ⟨before, ending, after, split, -, ends, commits⟩ :=
      Sql.escapes_of_changes server.toServer contents [stmt] differ
    cases before with
    | nil =>
      cases split
      exact goesOn ends
    | cons head tail =>
      have short := congrArg List.length split
      simp at short
  unfold send
  rw [if_neg prepared]
  split
  · exact harmless _ (by simp [Sql.Statement.Ends])
  · exact harmless _ (by simp [Sql.Statement.Ends])
  · rfl

/-- A text without leave to write leaves every database alone exactly when the environment does not
resolve, or it comes with parameters, or it does not end the transaction, without a failure, and
commit a write after it. -/
theorem executeSql_unchanged_iff (catalog : Catalog)
    (groupsOf : String → PrincipalType → Text → List Text) (projectId : String) (envName : Text)
    (text : List SqlStatement) (params : Option (List Json)) (context : DbContext) :
    (∀ (δ : Type) (server : SqlServer δ) (databases : Text → δ),
      (executeSql server catalog groupsOf projectId envName text params false context databases).2 = databases) ↔
      (∃ error, resolveEnvDb catalog projectId envName = .error error) ∨ params.getD [] ≠ [] ∨ ¬ Escapes text := by
  cases resolves : resolveEnvDb catalog projectId envName with
  | error error =>
    refine ⟨fun _ => .inl ⟨error, rfl⟩, fun _ δ server databases => ?_⟩
    unfold executeSql
    rw [resolves]
  | ok resolved =>
    constructor
    · intro unchanged
      right
      by_cases prepared : params.getD [] ≠ []
      · exact .inl prepared
      · right
        intro escapes
        let server : SqlServer Nat :=
          { Sql.countingServer Text Text with locate := id, alter := fun _ _ => none }
        have kept := congrFun (unchanged Nat server fun _ => 0) (server.locate resolved.config.url)
        rw [executeSql_eq resolves] at kept
        unfold send at kept
        dsimp only at kept
        rw [if_pos rfl, if_pos (not_not.mp prepared)] at kept
        exact Sql.changes_of_escapes escapes kept
    · intro safe δ server databases
      rw [executeSql_eq resolves]
      funext name
      by_cases here : name = server.locate resolved.config.url
      · rw [if_pos here, here]
        rcases safe with ⟨_, unresolved⟩ | prepared | confined
        · cases unresolved
        · exact settle_send_of_params server prepared _
        · by_cases prepared : params.getD [] = []
          · unfold send
            rw [if_pos prepared]
            exact (Sql.unchanged_iff text).mpr confined δ server.toServer _
          · exact settle_send_of_params server prepared _
      · exact if_neg here

def emptyingServer : SqlServer (List Text) where
  answers _ _ := true
  apply _ _ := some []
  locate url := url
  alter _ rows := some rows

/-- A text may end the transaction that is to protect the database, and delete its rows. -/
theorem commit_then_delete : (executeSql emptyingServer shops (fun _ _ _ => []) "proj_a" "test".toList
        [.commit, .write "DELETE FROM orders".toList] none false {}
        fun _ => ["order 1".toList]).2 shops.databaseUrl ≠ ["order 1".toList] := by
  have resolves : resolveEnvDb shops "proj_a" "test".toList = .ok ⟨fallbackConfig shops "shop".toList "test".toList,
        (fallbackConfig shops "shop".toList "test".toList).schema, "org_a"⟩ := rfl
  rw [executeSql_eq resolves]
  decide +kernel

end EveHorizon.EnvDb
