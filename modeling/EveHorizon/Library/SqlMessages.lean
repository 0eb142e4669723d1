/-!
# Messages of several statements

A client that sends a text of statements in one message leaves the transactions to the server: a
`COMMIT` or `ROLLBACK` in the text ends the one the client has begun, and what comes after it runs in
new ones.
-/

namespace EveHorizon.Sql

open List

inductive Statement (ρ ω : Type) where
  | read (query : ρ)
  | write (change : ω)
  | commit
  | rollback
  | beginBlock
  | setReadWrite
  | setReadOnly

structure Server (ρ ω δ : Type) where
  answers : ρ → δ → Bool
  apply : ω → δ → Option δ

structure Transaction (δ : Type) where
  /-- It was begun by a statement, and the end of the message does not end it. -/
  block : Bool
  readOnly : Bool
  /-- A query has run in it. -/
  queried : Bool
  contents : δ

structure Connection (δ : Type) where
  committed : δ
  transaction : Option (Transaction δ)

variable {ρ ω δ : Type}

namespace Connection

variable (connection : Connection δ)

def current : Transaction δ :=
  connection.transaction.getD
    { block := false, readOnly := false, queried := false, contents := connection.committed }

def proceed (transaction : Transaction δ) : Connection δ :=
  { connection with transaction := some transaction }

def commit : Connection δ where
  committed := connection.current.contents
  transaction := none

def rollback : Connection δ where
  committed := connection.committed
  transaction := none

def finish : Connection δ :=
  if connection.current.block then connection else connection.commit

end Connection

section

variable (server : Server ρ ω δ)

def Statement.run (connection : Connection δ) : Statement ρ ω → Option (Connection δ)
  | .read query =>
    let transaction := connection.current
    if server.answers query transaction.contents then
      some (connection.proceed { transaction with queried := true })
    else none
  | .write change =>
    let transaction := connection.current
    if transaction.readOnly then none
    else (server.apply change transaction.contents).map fun contents =>
      connection.proceed { transaction with queried := true, contents }
  | .commit => some connection.commit
  | .rollback => some connection.rollback
  | .beginBlock => some (connection.proceed { connection.current with block := true })
  | .setReadWrite =>
    let transaction := connection.current
    if transaction.readOnly && transaction.queried then none
    else some (connection.proceed { transaction with readOnly := false })
  | .setReadOnly => some (connection.proceed { connection.current with readOnly := true })

/-- A message of the simple protocol, and whether all its statements succeed. The first failure ends
it and undoes the transaction it is in. -/
def runMessage : List (Statement ρ ω) → Connection δ → Bool × Connection δ
  | [], connection => (true, connection.finish)
  | stmt :: rest, connection =>
    match stmt.run server connection with
    | none => (false, connection.rollback)
    | some reached => runMessage rest reached

/-- The client commits after a message that succeeds and rolls back after one that fails. -/
def settle (result : Bool × Connection δ) : Connection δ :=
  if result.1 then result.2.commit else result.2.rollback

end

namespace Statement

def Ends (stmt : Statement ρ ω) : Prop := stmt = .commit ∨ stmt = .rollback

instance (stmt : Statement ρ ω) : Decidable stmt.Ends :=
  match stmt with
  | .commit => isTrue (.inl rfl)
  | .rollback => isTrue (.inr rfl)
  | .read _ | .write _ | .beginBlock | .setReadWrite | .setReadOnly =>
    isFalse fun ends => by cases ends with
      | inl same => cases same
      | inr same => cases same

def Harmless : Statement ρ ω → Prop
  | .read _ | .beginBlock | .setReadOnly => True
  | .write _ | .commit | .rollback | .setReadWrite => False

end Statement

open Statement (Ends run)

def sinceEnd (text : List (Statement ρ ω)) : List (Statement ρ ω) :=
  (text.reverse.takeWhile fun stmt => ¬ stmt.Ends).reverse

variable (segment : List (Statement ρ ω))

def SetsReadOnly : Prop :=
  ∃ before after, segment = before ++ .setReadOnly :: after ∧ .setReadWrite ∉ after

def Writes : Prop := ∃ change, .write change ∈ segment

def Queries : Prop := (∃ query, .read query ∈ segment) ∨ Writes segment

variable (text : List (Statement ρ ω))

/-- No statement of the text is refused for the mode of the transaction it runs in. -/
def Accepted : Prop :=
  ∀ before stmt after, text = before ++ stmt :: after → SetsReadOnly (sinceEnd before) →
      (∀ change, stmt ≠ .write change) ∧ (stmt = .setReadWrite → ¬ Queries (sinceEnd before))

/-- A `COMMIT` of the text commits a write. -/
def CommitsWithin : Prop :=
  ∃ before after, text = before ++ .commit :: after ∧ Accepted before ∧ Writes (sinceEnd before)

def CommitsWrite : Prop :=
  CommitsWithin text ∨ Accepted text ∧ Writes (sinceEnd text)

/-- The text ends a read-only transaction without a failure, and commits a write after it. -/
def Escapes : Prop :=
  ∃ before ending after, text = before ++ ending :: after ∧
    (∀ stmt ∈ before, stmt.Harmless) ∧ ending.Ends ∧ CommitsWrite after

theorem sinceEnd_append_singleton (stmt : Statement ρ ω) :
    sinceEnd (text ++ [stmt]) = if stmt.Ends then [] else sinceEnd text ++ [stmt] := by
  unfold sinceEnd
  rw [reverse_append]
  by_cases ends : stmt.Ends
  · simp [ends]
  · simp [ends]

variable (segment : List (Statement ρ ω)) (stmt : Statement ρ ω)

theorem setsReadOnly_append_singleton : SetsReadOnly (segment ++ [stmt]) ↔
      stmt = .setReadOnly ∨ stmt ≠ .setReadWrite ∧ SetsReadOnly segment := by
  constructor
  · intro sets
    obtain ⟨before, after, split, kept⟩ := sets
    rcases eq_nil_or_concat after with empty | ⟨front, last, isAfter⟩
    · rw [empty] at split
      exact .inl (append_inj_right' split rfl |> singleton_inj.mp)
    · rw [concat_eq_append] at isAfter
      rw [isAfter, ← cons_append, ← append_assoc] at split
      have sameLast := singleton_inj.mp (append_inj_right' split rfl)
      rw [isAfter] at kept
      right
      refine ⟨?_, before, front, append_inj_left' split rfl, fun member => kept (mem_append_left _ member)⟩
      intro isReadWrite
      exact kept (mem_append_right _ (by rw [← sameLast, isReadWrite]; exact mem_singleton_self _))
  · intro sets
    rcases sets with rfl | ⟨other, before, after, split, kept⟩
    · exact ⟨segment, [], rfl, not_mem_nil⟩
    · refine ⟨before, after ++ [stmt], by rw [split, append_assoc]; rfl, fun member => ?_⟩
      cases mem_append.mp member with
      | inl earlier => exact kept earlier
      | inr here => exact other (mem_singleton.mp here).symm

theorem writes_append_singleton :
    Writes (segment ++ [stmt]) ↔ (∃ change, stmt = .write change) ∨ Writes segment := by
  unfold Writes
  simp only [mem_append, mem_singleton, exists_or]
  rw [or_comm]
  simp only [eq_comm]

theorem queries_append_singleton :
    Queries (segment ++ [stmt]) ↔ (∃ query, stmt = .read query) ∨ (∃ change, stmt = .write change) ∨
        Queries segment := by
  unfold Queries
  rw [writes_append_singleton]
  simp only [mem_append, mem_singleton, exists_or]
  simp only [eq_comm (a := stmt)]
  constructor
  · intro queries
    rcases queries with (earlier | here) | (here | earlier)
    · exact .inr (.inr (.inl earlier))
    · exact .inl here
    · exact .inr (.inl here)
    · exact .inr (.inr (.inr earlier))
  · intro queries
    rcases queries with here | here | earlier | earlier
    · exact .inl (.inr here)
    · exact .inr (.inl here)
    · exact .inl (.inl earlier)
    · exact .inr (.inr earlier)

theorem accepted_nil : Accepted ([] : List (Statement ρ ω)) := by
  intro before stmt after split
  cases before with
  | nil | cons head tail => cases split

theorem accepted_append_singleton (stmt : Statement ρ ω) :
    Accepted (text ++ [stmt]) ↔ Accepted text ∧ (SetsReadOnly (sinceEnd text) →
        (∀ change, stmt ≠ .write change) ∧ (stmt = .setReadWrite → ¬ Queries (sinceEnd text))) := by
  constructor
  · intro accepted
    refine ⟨fun before other after split => ?_, accepted text stmt [] rfl⟩
    exact accepted before other (after ++ [stmt]) (by rw [split, append_assoc]; rfl)
  · intro accepted before other after split
    rcases eq_nil_or_concat after with empty | ⟨front, last, isAfter⟩
    · rw [empty] at split
      rw [← append_inj_left' split rfl, ← singleton_inj.mp (append_inj_right' split rfl)]
      exact accepted.2
    · rw [concat_eq_append] at isAfter
      rw [isAfter, ← cons_append, ← append_assoc] at split
      exact accepted.1 before other front (append_inj_left' split rfl)

/-! ## After the end of a transaction -/

/-- What a connection shows of the statements that have run on it since the contents were committed. -/
structure Tracks (original : δ) (ran : List (Statement ρ ω)) (connection : Connection δ) : Prop where
  accepted : Accepted ran
  readOnly : connection.current.readOnly = true ↔ SetsReadOnly (sinceEnd ran)
  queried : connection.current.queried = true ↔ Queries (sinceEnd ran)
  written : connection.current.contents ≠ connection.committed → Writes (sinceEnd ran)
  committed : connection.committed ≠ original → CommitsWithin ran

theorem tracks_nil (contents : δ) :
    Tracks contents ([] : List (Statement ρ ω)) { committed := contents, transaction := none } where
  accepted := accepted_nil
  readOnly := by
    constructor
    · intro isReadOnly
      cases isReadOnly
    · intro sets
      obtain ⟨before, after, split, -⟩ := sets
      exact absurd split (by simp [sinceEnd])
  queried := by
    constructor
    · intro isQueried
      cases isQueried
    · intro queries
      rcases queries with ⟨query, member⟩ | ⟨change, member⟩
      · cases member
      · cases member
  written := fun differ => absurd rfl differ
  committed := fun differ => absurd rfl differ

theorem CommitsWithin.append {text : List (Statement ρ ω)} (commits : CommitsWithin text)
    (more : List (Statement ρ ω)) : CommitsWithin (text ++ more) := by
  obtain ⟨before, after, split, commits⟩ := commits
  exact ⟨before, after ++ more, by rw [split, append_assoc]; rfl, commits⟩

section

variable {server : Server ρ ω δ} {original : δ} {ran : List (Statement ρ ω)}
  {connection reached : Connection δ} {stmt : Statement ρ ω}

section

variable (tracks : Tracks original ran connection)
include tracks

theorem Tracks.proceed (goesOn : ¬ stmt.Ends) (transaction : Transaction δ)
    (accepted : SetsReadOnly (sinceEnd ran) →
      (∀ change, stmt ≠ .write change) ∧ (stmt = .setReadWrite → ¬ Queries (sinceEnd ran)))
    (readOnly : transaction.readOnly = true ↔ stmt = .setReadOnly ∨
      stmt ≠ .setReadWrite ∧ connection.current.readOnly = true)
    (queried : transaction.queried = true ↔ (∃ query, stmt = .read query) ∨
      (∃ change, stmt = .write change) ∨ connection.current.queried = true)
    (written : transaction.contents ≠ connection.current.contents → ∃ change, stmt = .write change) :
    Tracks original (ran ++ [stmt]) (connection.proceed transaction) where
  accepted := (accepted_append_singleton ran stmt).mpr ⟨tracks.accepted, accepted⟩
  readOnly := by
    rw [sinceEnd_append_singleton, if_neg goesOn, setsReadOnly_append_singleton, ← tracks.readOnly]
    exact readOnly
  queried := by
    rw [sinceEnd_append_singleton, if_neg goesOn, queries_append_singleton, ← tracks.queried]
    exact queried
  written := by
    intro differ
    rw [sinceEnd_append_singleton, if_neg goesOn, writes_append_singleton]
    by_cases same : transaction.contents = connection.current.contents
    · right
      apply tracks.written
      rw [← same]
      exact differ
    · exact .inl (written same)
  committed differ := (tracks.committed differ).append _

theorem Tracks.ended (ends : stmt.Ends) {contents : δ}
    (committed : contents ≠ original → CommitsWithin (ran ++ [stmt])) :
    Tracks original (ran ++ [stmt]) { committed := contents, transaction := none } := by
  have unrestricted : (∀ change, stmt ≠ .write change) ∧ stmt ≠ .setReadWrite := by
    cases ends with
    | inl isCommit => simp [isCommit]
    | inr isRollback => simp [isRollback]
  have fresh : sinceEnd (ran ++ [stmt]) = [] := by rw [sinceEnd_append_singleton, if_pos ends]
  have new := tracks_nil (ρ := ρ) (ω := ω) contents
  exact
    { accepted := (accepted_append_singleton ran stmt).mpr ⟨tracks.accepted, fun _ =>
        ⟨unrestricted.1, fun isReadWrite => absurd isReadWrite unrestricted.2⟩⟩
      readOnly := by
        rw [fresh]
        exact new.readOnly
      queried := by
        rw [fresh]
        exact new.queried
      written := fun differ => absurd rfl differ
      committed }

theorem Tracks.run (runs : stmt.run server connection = some reached) :
    Tracks original (ran ++ [stmt]) reached := by
  cases stmt with
  | read query =>
    unfold run at runs
    dsimp only at runs
    split at runs
    · cases runs
      exact tracks.proceed (by simp [Ends]) _ (by simp) (by simp) (by simp) (by simp)
    · cases runs
  | write change =>
    unfold run at runs
    dsimp only at runs
    split at runs
    · cases runs
    · next writable =>
        obtain ⟨contents, -, rfl⟩ := Option.map_eq_some_iff.mp runs
        refine tracks.proceed (by simp [Ends]) _ ?_ (by simp) (by simp) (by simp)
        intro sets
        exact absurd (tracks.readOnly.mpr sets) writable
  | commit =>
    cases runs
    refine tracks.ended (.inl rfl) fun differ => ?_
    by_cases same : connection.current.contents = connection.committed
    · rw [same] at differ
      exact (tracks.committed differ).append _
    · exact ⟨ran, [], rfl, tracks.accepted, tracks.written same⟩
  | rollback =>
    cases runs
    exact tracks.ended (.inr rfl) fun differ => (tracks.committed differ).append _
  | beginBlock | setReadOnly =>
    cases runs
    exact tracks.proceed (by simp [Ends]) _ (by simp) (by simp) (by simp) (by simp)
  | setReadWrite =>
    unfold run at runs
    dsimp only at runs
    split at runs
    · cases runs
    · next allowed =>
        cases runs
        refine tracks.proceed (by simp [Ends]) _ ?_ (by simp) (by simp) (by simp)
        intro sets
        refine ⟨by simp, fun _ queries => allowed ?_⟩
        rw [tracks.readOnly.mpr sets, tracks.queried.mpr queries]
        rfl

end

theorem settle_finish (connection : Connection δ) :
    (settle (true, connection.finish)).committed = connection.current.contents := by
  unfold settle Connection.finish
  rw [if_pos rfl]
  by_cases block : connection.current.block = true
  · rw [if_pos block]
    rfl
  · rw [if_neg block]
    rfl

theorem Tracks.runMessage (rest : List (Statement ρ ω)) : ∀ {ran : List (Statement ρ ω)}
    {connection : Connection δ}, Tracks original ran connection →
    (settle (runMessage server rest connection)).committed ≠ original → CommitsWrite (ran ++ rest) := by
  induction rest with
  | nil =>
    intro ran connection tracks differ
    rw [append_nil]
    change (settle (true, connection.finish)).committed ≠ original at differ
    rw [settle_finish] at differ
    by_cases same : connection.current.contents = connection.committed
    · rw [same] at differ
      exact .inl (tracks.committed differ)
    · exact .inr ⟨tracks.accepted, tracks.written same⟩
  | cons stmt rest inductionHypothesis =>
    intro ran connection tracks differ
    rw [Sql.runMessage] at differ
    cases runs : stmt.run server connection with
    | none =>
      rw [runs] at differ
      exact .inl ((tracks.committed differ).append _)
    | some reached =>
      rw [runs] at differ
      have commits := inductionHypothesis (tracks.run runs) differ
      rwa [append_assoc] at commits

end

/-! ## In a read-only block -/

def readOnlyBlock (contents : δ) : Connection δ where
  committed := contents
  transaction := some { block := true, readOnly := true, queried := true, contents }

section

variable {server : Server ρ ω δ} {contents : δ} {stmt : Statement ρ ω}

variable (server contents) in
theorem run_harmless (harmless : stmt.Harmless) :
    stmt.run server (readOnlyBlock contents) = some (readOnlyBlock contents) ∨
      stmt.run server (readOnlyBlock contents) = none ∧
        ∃ query, stmt = .read query ∧ server.answers query contents = false := by
  cases stmt with
  | read query =>
    unfold run
    dsimp only
    cases answered : server.answers query (readOnlyBlock contents).current.contents with
    | true => exact .inl rfl
    | false => exact .inr ⟨rfl, query, rfl, answered⟩
  | beginBlock | setReadOnly => exact .inl rfl
  | write change | commit | rollback | setReadWrite => exact harmless.elim

theorem run_ends (ends : stmt.Ends) :
    stmt.run server (readOnlyBlock contents) = some { committed := contents, transaction := none } := by
  cases ends with
  | inl isCommit =>
    rw [isCommit]
    rfl
  | inr isRollback =>
    rw [isRollback]
    rfl

theorem run_refused (harmful : ¬ stmt.Harmless) (goesOn : ¬ stmt.Ends) :
    stmt.run server (readOnlyBlock contents) = none := by
  cases stmt with
  | read query | beginBlock | setReadOnly => exact absurd trivial harmful
  | write change | setReadWrite => rfl
  | commit => exact absurd (.inl rfl) goesOn
  | rollback => exact absurd (.inr rfl) goesOn

theorem escapes_of_changes (server : Server ρ ω δ) (contents : δ) (text : List (Statement ρ ω))
    (differ : (settle (runMessage server text (readOnlyBlock contents))).committed ≠ contents) : Escapes text := by
  induction text with
  | nil => exact absurd rfl differ
  | cons stmt rest inductionHypothesis =>
    rw [runMessage] at differ
    by_cases harmless : stmt.Harmless
    · rcases run_harmless server contents harmless with
        goesOn | ⟨failed, -⟩
      · rw [goesOn] at differ
        obtain ⟨before, ending, after, split, allHarmless, found⟩ := inductionHypothesis differ
        refine ⟨stmt :: before, ending, after, by rw [split]; rfl, ?_, found⟩
        intro other member
        cases mem_cons.mp member with
        | inl same => rwa [same]
        | inr earlier => exact allHarmless other earlier
      · rw [failed] at differ
        exact absurd rfl differ
    · by_cases ends : stmt.Ends
      · rw [run_ends ends] at differ
        exact ⟨[], stmt, rest, rfl, fun _ member => absurd member not_mem_nil, ends,
          (tracks_nil contents).runMessage rest differ⟩
      · rw [run_refused harmless ends] at differ
        exact absurd rfl differ

end

/-! ## A server that counts -/

def countingServer (ρ ω : Type) : Server ρ ω Nat where
  answers _ _ := true
  apply _ count := some (count + 1)

section

variable {ran : List (Statement ρ ω)} {connection reached : Connection Nat}
  {stmt : Statement ρ ω}

def Connection.Grows (connection : Connection Nat) : Prop :=
  connection.committed ≤ connection.current.contents

theorem Connection.Grows.run (grows : connection.Grows)
    (runs : stmt.run (countingServer ρ ω) connection = some reached) :
    connection.committed ≤ reached.committed ∧ reached.Grows := by
  unfold Connection.Grows at grows
  cases stmt with
  | read query | beginBlock | setReadOnly =>
    cases runs
    exact ⟨Nat.le_refl _, grows⟩
  | write change =>
    unfold run at runs
    dsimp only at runs
    split at runs
    · cases runs
    · cases runs
      exact ⟨Nat.le_refl _, Nat.le_succ_of_le grows⟩
  | commit =>
    cases runs
    exact ⟨grows, Nat.le_refl _⟩
  | rollback =>
    cases runs
    exact ⟨Nat.le_refl _, Nat.le_refl _⟩
  | setReadWrite =>
    unfold run at runs
    dsimp only at runs
    split at runs
    · cases runs
    · cases runs
      exact ⟨Nat.le_refl _, grows⟩

theorem Connection.Grows.runMessage (rest : List (Statement ρ ω)) : ∀ {connection : Connection Nat}, connection.Grows →
    connection.committed ≤ (settle (runMessage (countingServer ρ ω) rest connection)).committed := by
  induction rest with
  | nil =>
    intro connection grows
    change _ ≤ (settle (true, connection.finish)).committed
    rw [settle_finish]
    exact grows
  | cons stmt rest inductionHypothesis =>
    intro connection grows
    rw [Sql.runMessage]
    cases runs : stmt.run (countingServer ρ ω) connection with
    | none => exact Nat.le_refl _
    | some reached =>
      have step := grows.run runs
      exact Nat.le_trans step.1 (inductionHypothesis step.2)

structure Counts (ran : List (Statement ρ ω)) (connection : Connection Nat) : Prop
    extends Tracks 0 ran connection where
  grows : connection.Grows
  grown : Writes (sinceEnd ran) → connection.committed < connection.current.contents

theorem counts_nil : Counts ([] : List (Statement ρ ω)) { committed := 0, transaction := none } where
  toTracks := tracks_nil 0
  grows := Nat.le_refl _
  grown writes := by
    obtain ⟨change, member⟩ := writes
    cases member

theorem Counts.run_isSome (counts : Counts ran connection) (accepted : Accepted (ran ++ [stmt])) :
    ∃ reached, stmt.run (countingServer ρ ω) connection = some reached := by
  have allowed := ((accepted_append_singleton ran stmt).mp accepted).2
  cases stmt with
  | read query | commit | rollback | beginBlock | setReadOnly => exact ⟨_, rfl⟩
  | write change =>
    have writable : ¬ connection.current.readOnly = true := fun isReadOnly =>
      (allowed (counts.readOnly.mp isReadOnly)).1 change rfl
    unfold run
    dsimp only
    rw [if_neg writable]
    exact ⟨_, rfl⟩
  | setReadWrite =>
    have early : ¬ (connection.current.readOnly && connection.current.queried) = true := by
      intro late
      have both := Bool.and_eq_true_iff.mp late
      exact (allowed (counts.readOnly.mp both.1)).2 rfl (counts.queried.mp both.2)
    unfold run
    dsimp only
    rw [if_neg early]
    exact ⟨_, rfl⟩

theorem Counts.run (counts : Counts ran connection)
    (runs : stmt.run (countingServer ρ ω) connection = some reached) :
    Counts (ran ++ [stmt]) reached where
  toTracks := counts.toTracks.run runs
  grows := (counts.grows.run runs).2
  grown := by
    have grows := counts.grows
    unfold Connection.Grows at grows
    intro writes
    rw [sinceEnd_append_singleton] at writes
    cases stmt with
    | read query | beginBlock | setReadOnly =>
      cases runs
      exact counts.grown (by simpa [Ends, writes_append_singleton] using writes)
    | write change =>
      unfold run at runs
      dsimp only at runs
      split at runs
      · cases runs
      · cases runs
        exact Nat.lt_succ_of_le grows
    | commit | rollback => simp [Ends, Writes] at writes
    | setReadWrite =>
      unfold run at runs
      dsimp only at runs
      split at runs
      · cases runs
      · cases runs
        exact counts.grown (by simpa [Ends, writes_append_singleton] using writes)

variable {text : List (Statement ρ ω)}

theorem Accepted.of_append {more : List (Statement ρ ω)} (accepted : Accepted (text ++ more)) : Accepted text :=
  fun before stmt after split =>
    accepted before stmt (after ++ more) (by rw [split, append_assoc]; rfl)

theorem Counts.runMessage (text : List (Statement ρ ω)) : ∀ {ran : List (Statement ρ ω)}
    {connection : Connection Nat}, Counts ran connection → Accepted (ran ++ text) →
    ∃ reached, Counts (ran ++ text) reached ∧ ∀ rest, runMessage (countingServer ρ ω) (text ++ rest) connection =
        Sql.runMessage (countingServer ρ ω) rest reached := by
  induction text with
  | nil =>
    intro ran connection counts accepted
    rw [append_nil]
    exact ⟨connection, counts, fun _ => rfl⟩
  | cons stmt text inductionHypothesis =>
    intro ran connection counts accepted
    have together : ran ++ stmt :: text = (ran ++ [stmt]) ++ text := by
      rw [append_assoc]
      rfl
    rw [together] at accepted ⊢
    obtain ⟨next, runs⟩ := counts.run_isSome accepted.of_append
    obtain ⟨reached, counted, result⟩ := inductionHypothesis (counts.run runs) accepted
    refine ⟨reached, counted, fun rest => ?_⟩
    rw [cons_append, Sql.runMessage, runs]
    exact result rest

theorem changes_of_commitsWrite (commits : CommitsWrite text) :
    0 < (settle (runMessage (countingServer ρ ω) text { committed := 0, transaction := none })).committed := by
  cases commits with
  | inl within =>
    obtain ⟨before, after, split, accepted, writes⟩ := within
    obtain ⟨reached, counts, result⟩ := counts_nil.runMessage before accepted
    have committed : 0 < reached.current.contents := Nat.lt_of_le_of_lt (Nat.zero_le _) (counts.grown writes)
    rw [split, result, Sql.runMessage]
    have grows : reached.commit.Grows := Nat.le_refl _
    exact Nat.lt_of_lt_of_le committed (grows.runMessage after)
  | inr atEnd =>
    obtain ⟨reached, counts, result⟩ := counts_nil.runMessage text atEnd.1
    have final := result []
    rw [append_nil] at final
    rw [final]
    change 0 < (settle (true, reached.finish)).committed
    rw [settle_finish]
    exact Nat.lt_of_le_of_lt (Nat.zero_le _) (counts.grown atEnd.2)

theorem changes_of_escapes (escapes : Escapes text) :
    (settle (runMessage (countingServer ρ ω) text (readOnlyBlock 0))).committed ≠ 0 := by
  obtain ⟨before, ending, after, split, harmless, ends, commits⟩ := escapes
  have passed : runMessage (countingServer ρ ω) text (readOnlyBlock 0) =
      runMessage (countingServer ρ ω) after { committed := 0, transaction := none } := by
    rw [split]
    clear split
    induction before with
    | nil => rw [nil_append, runMessage, run_ends ends]
    | cons stmt rest inductionHypothesis =>
      rcases run_harmless (countingServer ρ ω) 0
        (harmless stmt mem_cons_self) with goesOn | ⟨-, query, -, unanswered⟩
      · rw [cons_append, runMessage, goesOn]
        exact inductionHypothesis fun other member =>
          harmless other (mem_cons_of_mem _ member)
      · cases unanswered
  rw [passed]
  exact Nat.pos_iff_ne_zero.mp (changes_of_commitsWrite commits)

end

theorem unchanged_iff (text : List (Statement ρ ω)) : (∀ (δ : Type) (server : Server ρ ω δ) (contents : δ),
      (settle (runMessage server text (readOnlyBlock contents))).committed = contents) ↔ ¬ Escapes text := by
  constructor
  · intro unchanged escapes
    exact changes_of_escapes escapes (unchanged Nat (countingServer ρ ω) 0)
  · intro confined δ server contents
    exact Classical.byContradiction fun differ =>
      confined (escapes_of_changes server contents text differ)

end EveHorizon.Sql
