import Mathlib
import PacketLog.Proofs.Store.History
import PacketLog.Proofs.Workshop.Visits

/-!
# What a snapshot shows

However the calls of the producers come, the bytes of the store are what the commits
among the visits make of it, in the order of the visits: `Recorded` says so of the
store, and of every snapshot taken on the way.  `Accounted` ties the visits to the
producers: what each has committed, and that it reads only after a commit of its own.
`shown_eq_kept_commits` puts the two together for a whole run.
-/

namespace PacketLog

open Bytes

namespace Visit

/-- Who committed what, in the order of the visits. -/
def commits (visits : List Visit) : List (Nat × Entry) := visits.filterMap commit?

def commitsOf (i : Nat) (visits : List Visit) : List (Nat × Entry) :=
  (commits visits).filter fun commit => commit.1 = i

def lastOf? (i : Nat) (visits : List Visit) : Option Visit :=
  (visits.filter fun visit => visit.producer = i).getLast?

theorem commits_append (visits more : List Visit) :
    commits (visits ++ more) = commits visits ++ commits more := List.filterMap_append

theorem commitsOf_append (i : Nat) (visits more : List Visit) :
    commitsOf i (visits ++ more) = commitsOf i visits ++ commitsOf i more := by
  rw [commitsOf, commits_append, List.filter_append]
  rfl

theorem producer_eq_of_commit? {visit : Visit} {commit : Nat × Entry}
    (hCommit : visit.commit? = some commit) : visit.producer = commit.1 := by
  cases visit with
  | committed j entry =>
    obtain rfl := Option.some.inj hCommit
    rfl
  | shown j bytes => cases hCommit
  | failed j => cases hCommit

theorem commitsOf_eq_nil {i : Nat} {visits : List Visit}
    (hOthers : ∀ visit ∈ visits, visit.producer ≠ i) : commitsOf i visits = [] := by
  rw [commitsOf, List.filter_eq_nil_iff]
  intro commit hMem hOwn
  obtain ⟨visit, hVisit, hCommit⟩ := List.mem_filterMap.mp hMem
  exact hOthers visit hVisit ((producer_eq_of_commit? hCommit).trans (of_decide_eq_true hOwn))

theorem commitsOf_committed (i : Nat) (entry : Entry) :
    commitsOf i [committed i entry] = [(i, entry)] := by
  rw [commitsOf]
  exact List.filter_cons_of_pos (decide_eq_true rfl)

theorem lastOf?_committed (visits : List Visit) (i : Nat) (entry : Entry) :
    lastOf? i (visits ++ [committed i entry]) = some (committed i entry) := by
  simp [lastOf?, producer]

theorem lastOf?_append_of_others {i : Nat} {more : List Visit}
    (hOthers : ∀ visit ∈ more, visit.producer ≠ i) (visits : List Visit) :
    lastOf? i (visits ++ more) = lastOf? i visits := by
  have hMore : (more.filter fun visit => visit.producer = i) = [] :=
    List.filter_eq_nil_iff.mpr fun visit hVisit hOwn =>
      hOthers visit hVisit (of_decide_eq_true hOwn)
  rw [lastOf?, List.filter_append, hMore, List.append_nil, lastOf?]

theorem mem_of_lastOf? {i : Nat} {visits : List Visit} {visit : Visit}
    (hLast : lastOf? i visits = some visit) : visit ∈ visits :=
  List.mem_of_mem_filter (List.mem_of_getLast? hLast)

theorem mem_commits {i : Nat} {entry : Entry} {visits : List Visit}
    (hMem : committed i entry ∈ visits) : (i, entry) ∈ commits visits :=
  List.mem_filterMap.mpr ⟨_, hMem, rfl⟩

end Visit

namespace Workshop

open Visit

variable {choice : StoreChoice} {context : Context} {visits : List Visit}
  {producers : List Producer}

/-- The store, and all that was shown of it, is what the commits among the visits make of it. -/
structure Recorded (choice : StoreChoice) (context : Context) (visits : List Visit) : Prop where
  holds : context.store.value.Holds context.files choice ((commits visits).map Prod.snd)
  isLine : ∀ commit ∈ commits visits, IsLine commit.2
  shown : ∀ before i bytes after, visits = before ++ .shown i bytes :: after →
    bytes = (choice.kept ((commits before).map Prod.snd)).flatten ∧
      ∃ packet, lastOf? i before = some (.committed i packet)

/-- The producers have committed what the visits say, and read only after a commit. -/
structure Accounted (producers : List Producer) (visits : List Visit) : Prop where
  known : ∀ visit ∈ visits, visit.producer < producers.length
  offers : ∀ (i : Nat) (producer : Producer), producers[i]? = some producer → producer.OffersLine
  counted : ∀ (i : Nat) (producer : Producer), producers[i]? = some producer →
    producer.commits = (commitsOf i visits).length
  reads : ∀ (i : Nat) (producer : Producer), producers[i]? = some producer → producer.Reads →
    ∃ packet, lastOf? i visits = some (.committed i packet)

/-! ## The store -/

/-- Where a visit stands in a list with one more visit at the end. -/
theorem eq_or_mem_of_concat_eq {before after : List Visit} {last visit : Visit}
    (hSplit : visits ++ [last] = before ++ visit :: after) :
    (before = visits ∧ visit = last) ∨ ∃ rest, visits = before ++ visit :: rest := by
  obtain rfl | ⟨rest, final, rfl⟩ := List.eq_nil_or_concat' after
  · obtain ⟨hBefore, hLast⟩ := List.append_inj' hSplit rfl
    exact Or.inl ⟨hBefore.symm, (List.singleton_inj.mp hLast).symm⟩
  · rw [← List.cons_append, ← List.append_assoc] at hSplit
    exact Or.inr ⟨rest, (List.append_inj' hSplit rfl).1⟩

namespace Recorded

variable {after : Context}

theorem congr (hRecorded : Recorded choice context visits) (hStore : after.store = context.store)
    (hFiles : after.files = context.files) : Recorded choice after visits := by
  obtain ⟨hHolds, hLine, hShown⟩ := hRecorded
  rw [← hStore, ← hFiles] at hHolds
  exact ⟨hHolds, hLine, hShown⟩

theorem commit (hRecorded : Recorded choice context visits) {i : Nat} {entry : Entry}
    {patience : Patience} {attempts : List Attempt} {answers : List WriteAnswer}
    (hCommit : context.commit patience attempts entry answers = (.ok (), after))
    (hLine : IsLine entry) : Recorded choice after (visits ++ [.committed i entry]) := by
  have hCommits : commits (visits ++ [.committed i entry]) = commits visits ++ [(i, entry)] :=
    commits_append _ _
  refine ⟨?_, ?_, fun before j bytes later hSplit => ?_⟩
  · rw [hCommits, List.map_append]
    exact (Context.holds_of_commit hRecorded.holds hCommit).2
  · rw [hCommits, List.forall_mem_append, List.forall_mem_singleton]
    exact ⟨hRecorded.isLine, hLine⟩
  · obtain ⟨-, hVisit⟩ | ⟨rest, hRest⟩ := eq_or_mem_of_concat_eq hSplit
    · cases hVisit
    · exact hRecorded.shown before j bytes rest hRest

/-- A snapshot shows what the commits so far make of the store. -/
theorem snapshot (hRecorded : Recorded choice context visits) {i : Nat} {bytes : Bytes}
    {patience : Patience} {attempts : List Attempt}
    (hSnapshot : context.snapshot patience attempts = (.ok bytes, after))
    (hLast : ∃ packet, lastOf? i visits = some (.committed i packet)) :
    Recorded choice after (visits ++ [.shown i bytes]) := by
  obtain ⟨-, hBytes, ⟨position, hStore⟩, hFiles⟩ := Context.of_snapshot hSnapshot
  have hCommits : commits (visits ++ [.shown i bytes]) = commits visits :=
    (commits_append _ _).trans (List.append_nil _)
  refine ⟨?_, ?_, fun before j shown later hSplit => ?_⟩
  · rw [hCommits, hStore, hFiles]
    exact hRecorded.holds.seek position
  · rw [hCommits]
    exact hRecorded.isLine
  · obtain ⟨rfl, hVisit⟩ | ⟨rest, hRest⟩ := eq_or_mem_of_concat_eq hSplit
    · obtain ⟨rfl, rfl⟩ := Visit.shown.inj hVisit
      exact ⟨hBytes.trans hRecorded.holds.readAll_eq, hLast⟩
    · exact hRecorded.shown before j shown rest hRest

end Recorded

/-! ## The producers -/

namespace Accounted

theorem join (hAccounted : Accounted producers visits) {producer : Producer}
    (hIdle : producer.request? = none) (hNew : producer.commits = 0) :
    Accounted (producers ++ [producer]) visits := by
  have hFound : ∀ (i : Nat) (found : Producer), (producers ++ [producer])[i]? = some found →
      producers[i]? = some found ∨ i = producers.length ∧ found = producer := by
    intro i found hGet
    rw [List.getElem?_append] at hGet
    split at hGet
    · exact Or.inl hGet
    · rw [List.getElem?_singleton] at hGet
      split at hGet
      · exact Or.inr ⟨by omega, (Option.some.inj hGet).symm⟩
      · cases hGet
  have hNone : commitsOf producers.length visits = [] :=
    commitsOf_eq_nil fun visit hVisit => Nat.ne_of_lt (hAccounted.known visit hVisit)
  refine ⟨fun visit hVisit => ?_, fun i found hGet => ?_, fun i found hGet => ?_,
    fun i found hGet hReads => ?_⟩
  · rw [List.length_append]
    exact Nat.lt_add_right _ (hAccounted.known visit hVisit)
  · obtain hOld | ⟨-, rfl⟩ := hFound i found hGet
    · exact hAccounted.offers i found hOld
    · exact Producer.offersLine_of_request?_eq_none hIdle
  · obtain hOld | ⟨rfl, rfl⟩ := hFound i found hGet
    · exact hAccounted.counted i found hOld
    · rw [hNew, hNone, List.length_nil]
  · obtain hOld | ⟨-, rfl⟩ := hFound i found hGet
    · exact hAccounted.reads i found hOld hReads
    · obtain ⟨patience, hRequest⟩ := hReads
      rw [hIdle] at hRequest
      cases hRequest

theorem eq_or_of_set {i j : Nat} {next found : Producer}
    (hGet : (producers.set i next)[j]? = some found) :
    (j = i ∧ found = next) ∨ (i ≠ j ∧ producers[j]? = some found) := by
  by_cases hIndex : i = j
  · subst hIndex
    rw [List.getElem?_set_self'] at hGet
    obtain ⟨_, -, rfl⟩ := Option.map_eq_some_iff.mp hGet
    exact Or.inl ⟨rfl, rfl⟩
  · rw [List.getElem?_set_ne hIndex] at hGet
    exact Or.inr ⟨hIndex, hGet⟩

theorem goOn (hAccounted : Accounted producers visits) {i : Nat} {producer next : Producer}
    (hProducer : producers[i]? = some producer) {more : List Visit}
    (hMore : ∀ visit ∈ more, visit.producer = i) (hOffers : next.OffersLine)
    (hCommits : next.commits = producer.commits + (commitsOf i more).length)
    (hReads : next.Reads → ∃ packet, lastOf? i (visits ++ more) = some (.committed i packet)) :
    Accounted (producers.set i next) (visits ++ more) := by
  obtain ⟨hLt, -⟩ := List.getElem?_eq_some_iff.mp hProducer
  have hOthers : ∀ {j : Nat}, i ≠ j → ∀ visit ∈ more, visit.producer ≠ j :=
    fun hNe visit hVisit hSame => hNe ((hMore visit hVisit).symm.trans hSame)
  refine ⟨?_, fun j found hGet => ?_, fun j found hGet => ?_, fun j found hGet hFound => ?_⟩
  · rw [List.length_set, List.forall_mem_append]
    exact ⟨hAccounted.known, fun visit hVisit => by rwa [hMore visit hVisit]⟩
  · obtain ⟨rfl, rfl⟩ | ⟨-, hOld⟩ := eq_or_of_set hGet
    · exact hOffers
    · exact hAccounted.offers j found hOld
  · rw [commitsOf_append, List.length_append]
    obtain ⟨rfl, rfl⟩ | ⟨hNe, hOld⟩ := eq_or_of_set hGet
    · rw [hCommits, hAccounted.counted j producer hProducer]
    · rw [commitsOf_eq_nil (hOthers hNe), hAccounted.counted j found hOld]
      rfl
  · obtain ⟨rfl, rfl⟩ | ⟨hNe, hOld⟩ := eq_or_of_set hGet
    · exact hReads hFound
    · rw [lastOf?_append_of_others (hOthers hNe)]
      exact hAccounted.reads j found hOld hFound

theorem move (hAccounted : Accounted producers visits) {i : Nat} {producer next : Producer}
    (hProducer : producers[i]? = some producer) (hOffers : next.OffersLine)
    (hCommits : next.commits = producer.commits)
    (hReads : next.Reads → ∃ packet, lastOf? i visits = some (.committed i packet)) :
    Accounted (producers.set i next) visits := by
  have hAfter := hAccounted.goOn hProducer (fun _ h => absurd h List.not_mem_nil) hOffers hCommits
  rw [List.append_nil] at hAfter
  exact hAfter hReads

end Accounted

/-! ## Steps and runs -/

/-- No call that had the lock has failed. -/
def Succeeded (visits : List Visit) : Prop := ∀ i, .failed i ∉ visits

theorem Succeeded.of_isPrefix {more : List Visit} (hSucceeded : Succeeded more)
    (hPrefix : visits <+: more) : Succeeded visits := fun i hMem =>
  hSucceeded i (hPrefix.subset hMem)

/-- The visits are right about the store and about the producers. -/
structure Consistent (choice : StoreChoice) (workshop : Workshop) : Prop where
  recorded : Recorded choice workshop.context workshop.visits
  accounted : Accounted workshop.producers workshop.visits

variable {workshop next last : Workshop}

theorem visits_isPrefix_of_transition (hStep : Transition workshop next) :
    workshop.visits <+: next.visits := by
  cases hStep with
  | committed | shown | failed => exact List.prefix_append _ _
  | _ => exact List.prefix_refl _

theorem visits_isPrefix_of_run? {events : List WorkshopEvent}
    (hRun : workshop.run? events = some last) : workshop.visits <+: last.visits := by
  induction events generalizing workshop with
  | nil =>
    obtain rfl := Option.some.inj hRun
    exact List.prefix_refl _
  | cons event later ih =>
    obtain ⟨next, hStep, hRest⟩ := Option.bind_eq_some_iff.mp hRun
    exact (visits_isPrefix_of_transition (transition_of_step? hStep)).trans (ih hRest)

/-- Whoever goes on, the record stays right. -/
theorem Consistent.step (hConsistent : Consistent choice workshop)
    (hStep : Transition workshop next) (hSucceeded : Succeeded next.visits) :
    Consistent choice next := by
  obtain ⟨hRecorded, hAccounted⟩ := hConsistent
  cases hStep with
  | raised => exact ⟨hRecorded.congr rfl rfl, hAccounted⟩
  | joined hIdle hNew => exact ⟨hRecorded, hAccounted.join hIdle hNew⟩
  | moved hProducer hIdle hNext =>
    obtain ⟨hOffers, hCommits, hReads⟩ := Producer.of_step? hIdle hNext
    exact ⟨hRecorded, hAccounted.move hProducer hOffers hCommits fun h => absurd h hReads⟩
  | committed hProducer hRequest hCommit hNext =>
    have hBefore := hAccounted.offers _ _ hProducer
    obtain ⟨hOffers, hCommits, -⟩ := Producer.of_committed? hBefore hNext
    refine ⟨hRecorded.commit hCommit (hBefore _ _ hRequest),
      hAccounted.goOn hProducer (List.forall_mem_singleton.mpr rfl) hOffers ?_ fun _ =>
        ⟨_, lastOf?_committed _ _ _⟩⟩
    rw [commitsOf_committed]
    exact hCommits
  | shown hProducer hRequest hSnapshot hNext =>
    have hBefore := hAccounted.offers _ _ hProducer
    obtain ⟨hOffers, hCommits, hReads⟩ := Producer.of_snapshotted? hBefore hNext
    -- Whoever asked to read has last committed, and having read asks for it no more.
    refine ⟨hRecorded.snapshot hSnapshot (hAccounted.reads _ _ hProducer ⟨_, hRequest⟩),
      hAccounted.goOn hProducer (List.forall_mem_singleton.mpr rfl) hOffers hCommits fun h => ?_⟩
    obtain ⟨error, hError⟩ := hReads h
    cases hError
  | commitGivenUp hProducer hRequest hNext =>
    have hBefore := hAccounted.offers _ _ hProducer
    obtain ⟨hOffers, hCommits, hReads⟩ := Producer.of_committed? hBefore hNext
    refine ⟨hRecorded, hAccounted.move hProducer hOffers hCommits fun h => ?_⟩
    cases hReads h
  | snapshotGivenUp hProducer hRequest hNext =>
    have hBefore := hAccounted.offers _ _ hProducer
    obtain ⟨hOffers, hCommits, -⟩ := Producer.of_snapshotted? hBefore hNext
    -- It will ask again, and has paid no visit since its commit.
    exact ⟨hRecorded, hAccounted.move hProducer hOffers hCommits fun _ =>
      hAccounted.reads _ _ hProducer ⟨_, hRequest⟩⟩
  | failed => exact absurd (List.mem_append_right _ List.mem_cons_self) (hSucceeded _)

/-- The visits only grow, so that what failed at any time would be among the last. -/
theorem Consistent.run (hConsistent : Consistent choice workshop) {events : List WorkshopEvent}
    (hRun : workshop.run? events = some last) (hSucceeded : Succeeded last.visits) :
    Consistent choice last := by
  induction events generalizing workshop with
  | nil =>
    obtain rfl := Option.some.inj hRun
    exact hConsistent
  | cons event later ih =>
    obtain ⟨next, hStep, hRest⟩ := Option.bind_eq_some_iff.mp hRun
    have hNext := hSucceeded.of_isPrefix (visits_isPrefix_of_run? hRest)
    exact ih (hConsistent.step (transition_of_step? hStep) hNext) hRest

theorem consistent_of_holds (hHolds : context.store.value.Holds context.files choice []) :
    Consistent choice { context := context } where
  recorded :=
    { holds := hHolds
      isLine := fun _ hMem => absurd hMem List.not_mem_nil
      shown := fun before i bytes after hSplit => by
        have hLength := congrArg List.length hSplit
        rw [List.length_append, List.length_cons, List.length_nil] at hLength
        omega }
  accounted :=
    { known := fun _ hMem => absurd hMem List.not_mem_nil
      offers := fun _ _ hGet => by cases hGet
      counted := fun _ _ hGet => by cases hGet
      reads := fun _ _ hGet => by cases hGet }

/-- What was shown is whole: its lines are the commits that are kept, and nothing follows them. -/
theorem Recorded.lines_eq (hRecorded : Recorded choice context visits) {before after : List Visit}
    {i : Nat} {bytes : Bytes} (hSplit : visits = before ++ .shown i bytes :: after) :
    lines bytes = (choice.kept (commits before)).map Prod.snd ∧ unterminated bytes = [] := by
  obtain ⟨hBytes, -⟩ := hRecorded.shown before i bytes after hSplit
  have hLine : ∀ packet ∈ choice.kept ((commits before).map Prod.snd), IsLine packet := by
    intro packet hMem
    obtain ⟨commit, hCommit, rfl⟩ := List.mem_map.mp ((choice.kept_isSuffix _).subset hMem)
    refine hRecorded.isLine commit ?_
    rw [hSplit, commits_append]
    exact List.mem_append_left _ hCommit
  have hLines := lines_flatten_append_of_isLine hLine []
  have hRest := unterminated_flatten_append_of_isLine hLine []
  rw [List.append_nil, ← hBytes] at hLines hRest
  rw [hLines, choice.kept_map]
  exact ⟨List.append_nil _, hRest⟩

theorem Recorded.isPrefix_or_isPrefix {path : String}
    (hRecorded : Recorded (.file path) context visits) {i j : Nat} {bytes other : Bytes}
    (hBytes : .shown i bytes ∈ visits) (hOther : .shown j other ∈ visits) :
    bytes <+: other ∨ other <+: bytes := by
  have hGrows : ∀ {s t : List Visit}, s <+: t →
      ((commits s).map Prod.snd).flatten <+: ((commits t).map Prod.snd).flatten := by
    rintro s t ⟨more, rfl⟩
    rw [commits_append, List.map_append, List.flatten_append]
    exact List.prefix_append _ _
  obtain ⟨before, after, hSplit⟩ := List.append_of_mem hBytes
  obtain ⟨before', after', hSplit'⟩ := List.append_of_mem hOther
  rw [(hRecorded.shown _ _ _ _ hSplit).1, (hRecorded.shown _ _ _ _ hSplit').1]
  have hBefore : before <+: visits := ⟨_, hSplit.symm⟩
  have hBefore' : before' <+: visits := ⟨_, hSplit'.symm⟩
  exact (List.prefix_or_prefix_of_prefix hBefore hBefore').imp hGrows hGrows

/-- **A snapshot shows the commits before it.**  Whatever producers come to an empty store, a ring
or a regular file, and in whatever order their calls have the lock: as long as none of these fails,
each snapshot is the entries committed before it, laid end to end in the order of the commits, a
ring's the newest of them.  They are read back as whole lines, each producer's in its own order, and
every commit that a producer counts is among them.  Of a file any two snapshots are comparable, and
one that a producer takes holds the packet it has committed last. -/
theorem shown_eq_kept_commits {choice : StoreChoice} {context : Context}
    (hEmpty : context.store.value.Holds context.files choice []) {events : List WorkshopEvent}
    {last : Workshop} (hRun : run? { context := context } events = some last)
    (hSucceeded : ∀ i, .failed i ∉ last.visits) :
    (∀ before i bytes after, last.visits = before ++ .shown i bytes :: after →
      let kept := choice.kept (commits before)
      bytes = (kept.map Prod.snd).flatten ∧ lines bytes = kept.map Prod.snd ∧
      unterminated bytes = [] ∧
      ∀ j, (kept.filter fun commit => commit.1 = j) <:+ commitsOf j before) ∧
    (∀ (j : Nat) (producer : Producer), last.producers[j]? = some producer →
      producer.commits = (commitsOf j last.visits).length) ∧
    ∀ path, choice = .file path →
      (∀ i bytes j other, .shown i bytes ∈ last.visits → .shown j other ∈ last.visits →
        bytes <+: other ∨ other <+: bytes) ∧
      ∀ before i bytes after, last.visits = before ++ .shown i bytes :: after →
        ∃ packet, lastOf? i before = some (.committed i packet) ∧ packet ∈ lines bytes := by
  obtain ⟨hRecorded, hAccounted⟩ := (consistent_of_holds hEmpty).run hRun hSucceeded
  refine ⟨fun before i bytes after hSplit => ?_, hAccounted.counted, ?_⟩
  · obtain ⟨hBytes, -⟩ := hRecorded.shown before i bytes after hSplit
    obtain ⟨hLines, hRest⟩ := hRecorded.lines_eq hSplit
    rw [choice.kept_map] at hBytes
    exact ⟨hBytes, hLines, hRest, fun j => (choice.kept_isSuffix _).filter _⟩
  · rintro path rfl
    refine ⟨fun i bytes j other => hRecorded.isPrefix_or_isPrefix,
      fun before i bytes after hSplit => ?_⟩
    obtain ⟨-, packet, hLast⟩ := hRecorded.shown before i bytes after hSplit
    refine ⟨packet, hLast, ?_⟩
    rw [(hRecorded.lines_eq hSplit).1]
    exact List.mem_map_of_mem (mem_commits (mem_of_lastOf? hLast))

/-- Two workers at one file: each commits before either has read. -/
theorem shown_eq_kept_commits_of_two_workers :
    let context : Context :=
      { store := { value := .inFile { path := "/a", inode := 1 } }
        files := { nodes := [.directory 0 [("a", 1)], .file []], locked := [1] } }
    let free : List Attempt := [⟨true, false⟩]
    let events : List WorkshopEvent :=
      [.accepted 1 8 4, .accepted 2 8 4, .moved 0 (.ofWorker .polled), .moved 1 (.ofWorker .polled),
        .moved 0 (.ofWorker (.looked false)), .moved 1 (.ofWorker (.looked false)),
        .moved 1 (.ofWorker (.received (.received [98, 10]) true)),
        .moved 0 (.ofWorker (.received (.received [97, 10]) true)),
        .called 1 free [.accepted 1, .accepted 1], .called 0 free [.accepted 2],
        .called 1 free [], .called 0 free []]
    Store.create {} (.file "/a") = (.ok context.store.value, context.files) ∧
    ∃ last, run? { context := context } events = some last ∧ (∀ i, .failed i ∉ last.visits) ∧
      ∃ before after, last.visits = before ++ .shown 1 [98, 10, 97, 10] :: after ∧
        lines [98, 10, 97, 10] = [[98, 10], [97, 10]] := by
  intro context free events
  have hCreate : Store.create {} (.file "/a") = (.ok context.store.value, context.files) := by cbv
  have hEmpty := Store.holds_of_create hCreate rfl
  obtain ⟨last, hRun, hVisits⟩ : ∃ last, run? { context := context } events = some last ∧
      last.visits = [.committed 1 [98, 10], .committed 0 [97, 10]] ++
        .shown 1 [98, 10, 97, 10] :: [.shown 0 [98, 10, 97, 10]] := ⟨_, by cbv, rfl⟩
  have hSucceeded : ∀ i, .failed i ∉ last.visits := fun i => by rw [hVisits]; simp
  obtain ⟨hShown, -⟩ := shown_eq_kept_commits hEmpty hRun hSucceeded
  obtain ⟨-, hLines, -⟩ := hShown _ _ _ _ hVisits
  exact ⟨hCreate, last, hRun, hSucceeded, _, _, hVisits, hLines⟩

/-- A file that is no regular one need not keep what it takes: every call succeeds, and the snapshot
is empty. -/
theorem shown_ne_commits_of_device :
    ∃ (files after : FileSystem) (store : Store) (events : List WorkshopEvent) (last : Workshop),
      Store.create files (.file "/n") = (.ok store, after) ∧
      run? { context := { store := { value := store }, files := after } } events = some last ∧
      (∀ i, .failed i ∉ last.visits) ∧
      ∃ before i bytes rest, last.visits = before ++ .shown i bytes :: rest ∧
        bytes ≠ ((commits before).map Prod.snd).flatten := by
  let files : FileSystem := { nodes := [.directory 0 [("n", 1)], .device true] }
  let free : List Attempt := [⟨true, false⟩]
  refine ⟨files, { files with locked := [1] }, .inFile { path := "/n", inode := 1 },
    [.accepted 1 8 4, .moved 0 (.ofWorker .polled), .moved 0 (.ofWorker (.looked false)),
      .moved 0 (.ofWorker (.received (.received [97, 10]) true)), .called 0 free [.accepted 2],
      .called 0 free []], _, by cbv, rfl, ?_, [.committed 0 [97, 10]], 0, [], [], rfl, by decide⟩
  intro i hMem
  rcases hMem with _ | ⟨_, _ | ⟨_, hMem⟩⟩
  cases hMem

end Workshop

end PacketLog
