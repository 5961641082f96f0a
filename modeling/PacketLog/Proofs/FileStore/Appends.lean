import Mathlib
import PacketLog.Proofs.Lines
import PacketLog.Proofs.Store.History

/-!
# Appends to one file

The write calls of an append may take less than they are offered, and may fail.
`taken` says which bytes they take in all, and `Extends` that these are what a regular
file grows by, whatever the append comes to; it returns without an error just when they
are the whole packet (`append_spec`).

So a file shows what was taken of each packet, laid end to end, and an append that fails
after some of its bytes have been taken leaves them there, in front of the packets to
come: the file shows the committed packets and nothing else exactly if there is none
(`readAll_appendAll`).  There may be one, and a device shows nothing
(`readAll_ne_committed`).
-/

namespace PacketLog.FileStore

open Bytes

/-- The bytes that the write calls of an append take. -/
def taken (bytes : Bytes) : List WriteAnswer → Bytes
  | [] => []
  | answer :: later =>
    if bytes = [] then []
    else
      match answer with
      | .accepted 0 => []
      | .accepted count => bytes.take count ++ taken (bytes.drop count) later
      | .failed failure => if failure.kind = .interrupted then taken bytes later else []

/-- A regular file and its store have grown by `bytes`. -/
structure Extends (store : FileStore) (files : FileSystem) (bytes : Bytes) (after : FileStore)
    (filesAfter : FileSystem) : Prop where
  inode_eq : after.inode = store.inode
  length_eq : after.length = store.length + bytes.length
  node?_eq : ∀ reversed, files.node? store.inode = some (.file reversed) →
    filesAfter.node? store.inode = some (.file (bytes.reverse ++ reversed))

variable {store after : FileStore} {files filesAfter : FileSystem}

theorem Extends.refl (store : FileStore) (files : FileSystem) :
    Extends store files [] store files where
  inode_eq := rfl
  length_eq := rfl
  node?_eq := fun _ hNode => hNode

theorem Extends.trans {bytes more : Bytes} {last : FileStore} {filesLast : FileSystem}
    (hFirst : Extends store files bytes after filesAfter)
    (hThen : Extends after filesAfter more last filesLast) :
    Extends store files (bytes ++ more) last filesLast where
  inode_eq := hThen.inode_eq.trans hFirst.inode_eq
  length_eq := by
    rw [hThen.length_eq, hFirst.length_eq, List.length_append, Nat.add_assoc]
  node?_eq := fun reversed hNode => by
    have hNext := hThen.node?_eq _ (hFirst.inode_eq ▸ hFirst.node?_eq _ hNode)
    rwa [hFirst.inode_eq, ← List.append_assoc, ← List.reverse_append] at hNext

/-! ## One append -/

theorem taken_isPrefix (bytes : Bytes) (answers : List WriteAnswer) :
    taken bytes answers <+: bytes := by
  induction answers generalizing bytes with
  | nil => exact List.nil_prefix
  | cons answer later ih =>
    rw [taken.eq_def]
    dsimp only
    split
    · exact List.nil_prefix
    · split
      · exact List.nil_prefix
      · next count _ =>
        have hBoth := List.prefix_append_right_inj (bytes.take count) |>.mpr (ih (bytes.drop count))
        rwa [List.take_append_drop] at hBoth
      · split
        · exact ih bytes
        · exact List.nil_prefix

/-- The cases of an append, which are those of `taken`. -/
theorem append_spec (store : FileStore) (files : FileSystem) (bytes : Bytes)
    (answers : List WriteAnswer) {outcome : Outcome Unit}
    (hAppend : store.append files bytes answers = (outcome, after, filesAfter)) :
    Extends store files (taken bytes answers) after filesAfter ∧
      (outcome = .ok () ↔ taken bytes answers = bytes) := by
  suffices hSpec : Extends store files (taken bytes answers)
        (store.append files bytes answers).2.1 (store.append files bytes answers).2.2 ∧
      ((store.append files bytes answers).1 = .ok () ↔ taken bytes answers = bytes) by
    rwa [hAppend] at hSpec
  clear hAppend
  induction store, files, bytes, answers using append_induction with
  | done store files answers =>
    have hNone : taken [] answers = [] := List.prefix_nil.mp (taken_isPrefix [] answers)
    rw [hNone]
    exact ⟨.refl _ _, fun _ => rfl, fun _ => rfl⟩
  | waiting store files bytes hBytes =>
    exact ⟨.refl _ _, nofun, fun hNone => absurd hNone.symm hBytes⟩
  | zero store files bytes later hBytes =>
    rw [taken, if_neg hBytes]
    exact ⟨.refl _ _, nofun, fun hNone => absurd hNone.symm hBytes⟩
  | accepted store files bytes count later hBytes ih =>
    -- A short write: the rest is offered again.
    obtain ⟨hRest, hWhole⟩ := ih
    have hTaken : Extends store files (bytes.take (count + 1))
        (store.extend files (bytes.take (count + 1)))
        (files.appendTo store.inode (bytes.take (count + 1))) :=
      { inode_eq := rfl
        length_eq := rfl
        node?_eq := fun _ hNode => FileSystem.node?_appendTo hNode _ }
    rw [taken, if_neg hBytes]
    · refine ⟨hTaken.trans hRest, hWhole.trans ?_⟩
      conv => rhs; rhs; rw [← List.take_append_drop (count + 1) bytes]
      rw [List.append_cancel_left_eq]
    · exact Nat.succ_ne_zero count
  | interrupted store files bytes failure later hBytes hAgain ih =>
    rw [taken, if_neg hBytes, if_pos hAgain]
    exact ih
  | failed store files bytes failure later hBytes hFinal =>
    rw [taken, if_neg hBytes, if_neg hFinal]
    exact ⟨.refl _ _, nofun, fun hNone => absurd hNone.symm hBytes⟩

/-! ## A run of appends -/

/-- One append after another, whatever becomes of each.  Beside each packet stands what its append
came to. -/
def appendAll (store : FileStore) (files : FileSystem) :
    List (Bytes × List WriteAnswer) → List (Bytes × Outcome Unit) × FileStore × FileSystem
  | [] => ([], store, files)
  | (packet, answers) :: later =>
    let (outcome, store, files) := store.append files packet answers
    let (records, store, files) := store.appendAll files later
    ((packet, outcome) :: records, store, files)

/-- The packets whose append returned without an error. -/
def committed (records : List (Bytes × Outcome Unit)) : List Bytes :=
  (records.filter fun record => record.2 = .ok ()).map Prod.fst

theorem committed_cons (packet : Bytes) (outcome : Outcome Unit)
    (records : List (Bytes × Outcome Unit)) :
    committed ((packet, outcome) :: records) =
      if outcome = .ok () then packet :: committed records else committed records := by
  by_cases hOk : outcome = .ok () <;> simp [committed, hOk]

theorem exists_of_appendAll_cons {packet : Bytes} {answers : List WriteAnswer}
    {later : List (Bytes × List WriteAnswer)} {records : List (Bytes × Outcome Unit)}
    (hAppends : store.appendAll files ((packet, answers) :: later) = (records, after, filesAfter)) :
    ∃ outcome next filesNext rest, store.append files packet answers = (outcome, next, filesNext) ∧
      next.appendAll filesNext later = (rest, after, filesAfter) ∧
      records = (packet, outcome) :: rest := by
  rcases hAppend : store.append files packet answers with ⟨outcome, next, filesNext⟩
  rcases hRest : next.appendAll filesNext later with ⟨rest, last, filesLast⟩
  rw [appendAll, hAppend] at hAppends
  dsimp only at hAppends
  rw [hRest] at hAppends
  obtain ⟨rfl, rfl, rfl⟩ := hAppends
  exact ⟨outcome, next, filesNext, rest, rfl, hRest, rfl⟩

/-- What the write calls of each append take. -/
def takenIn (calls : List (Bytes × List WriteAnswer)) : List Bytes :=
  calls.map fun call => taken call.1 call.2

theorem takenIn_cons (packet : Bytes) (answers : List WriteAnswer)
    (later : List (Bytes × List WriteAnswer)) :
    takenIn ((packet, answers) :: later) = taken packet answers :: takenIn later := rfl

/-- An append takes all of its packet or nothing. -/
def TakesWhole (call : Bytes × List WriteAnswer) : Prop :=
  taken call.1 call.2 ≠ [] → taken call.1 call.2 = call.1

/-- What was taken of a packet is a beginning of it, which is all of it just if the append returned
without an error. -/
def PartOf (record : Bytes × Outcome Unit) (part : Bytes) : Prop :=
  part <+: record.1 ∧ (record.2 = .ok () ↔ part = record.1)

variable {calls : List (Bytes × List WriteAnswer)} {records : List (Bytes × Outcome Unit)}

/-- A file and its store grow by what was taken, whatever becomes of the appends. -/
theorem extends_appendAll
    (hAppends : store.appendAll files calls = (records, after, filesAfter)) :
    Extends store files (takenIn calls).flatten after filesAfter ∧
      List.Forall₂ PartOf records (takenIn calls) := by
  induction calls generalizing store files records with
  | nil =>
    obtain ⟨rfl, rfl, rfl⟩ := hAppends
    exact ⟨.refl _ _, .nil⟩
  | cons call later ih =>
    obtain ⟨packet, answers⟩ := call
    obtain ⟨outcome, next, filesNext, rest, hAppend, hRest, rfl⟩ :=
      exists_of_appendAll_cons hAppends
    obtain ⟨hFirst, hOk⟩ := append_spec store files packet answers hAppend
    obtain ⟨hLater, hParts⟩ := ih hRest
    exact ⟨hFirst.trans hLater, .cons ⟨taken_isPrefix packet answers, hOk⟩ hParts⟩

theorem length_committed_le {parts : List Bytes} (hParts : List.Forall₂ PartOf records parts) :
    (committed records).flatten.length ≤ parts.flatten.length := by
  induction hParts with
  | nil => exact Nat.le_refl 0
  | @cons record part _ _ hPart _ ih =>
    obtain ⟨packet, outcome⟩ := record
    rw [committed_cons, List.flatten_cons, List.length_append]
    split
    · next hOk =>
      rw [hPart.2.mp hOk, List.flatten_cons, List.length_append]
      exact Nat.add_le_add_left ih _
    · exact ih.trans (Nat.le_add_left _ _)

/-- What is committed is what was taken, unless something of a failed append was taken. -/
theorem flatten_takenIn_eq_iff
    (hAppends : store.appendAll files calls = (records, after, filesAfter)) :
    (takenIn calls).flatten = (committed records).flatten ↔ ∀ call ∈ calls, TakesWhole call := by
  induction calls generalizing store files records with
  | nil =>
    obtain ⟨rfl, rfl, rfl⟩ := hAppends
    exact iff_of_true rfl nofun
  | cons call later ih =>
    obtain ⟨packet, answers⟩ := call
    obtain ⟨outcome, next, filesNext, rest, hAppend, hRest, rfl⟩ :=
      exists_of_appendAll_cons hAppends
    obtain ⟨-, hOk⟩ := append_spec store files packet answers hAppend
    have hLater := ih hRest
    rw [committed_cons, List.forall_mem_cons, takenIn_cons, List.flatten_cons]
    by_cases hOutcome : outcome = .ok ()
    · have hWhole : TakesWhole (packet, answers) := fun _ => hOk.mp hOutcome
      rw [if_pos hOutcome, List.flatten_cons, hOk.mp hOutcome, List.append_cancel_left_eq, hLater]
      exact (and_iff_right hWhole).symm
    · have hShort := length_committed_le (extends_appendAll hRest).2
      have hPart : TakesWhole (packet, answers) ↔ taken packet answers = [] :=
        ⟨fun hWhole => by_contra fun hSome => hOutcome (hOk.mpr (hWhole hSome)),
          fun hNone hSome => absurd hNone hSome⟩
      rw [if_neg hOutcome, hPart, ← hLater]
      constructor
      · intro hSame
        have hLength := congrArg List.length hSame
        rw [List.length_append] at hLength
        have hNone : taken packet answers = [] := List.eq_nil_of_length_eq_zero (by omega)
        rw [hNone, List.nil_append] at hSame
        exact ⟨hNone, hSame⟩
      · rintro ⟨hNone, hSame⟩
        rw [hNone, List.nil_append, hSame]

theorem length_of_create {path : String} {answers : CreateAnswers}
    (hCreate : create files path answers = (.ok store, filesAfter)) : store.length = 0 := by
  obtain ⟨opened, -, -, -, hLength, -⟩ := exists_of_create hCreate
  exact hLength

/-- **A file shows what was taken of each packet.**  Appends to a new store whose file is a regular
one may be cut into writes in any way, be interrupted, and fail.  A read then brings what the write
calls of each append took, laid end to end: the whole packet if it returned without an error, and
else a beginning of it.  So the file shows the committed packets and nothing else exactly if no
append failed after some of its bytes had been taken; if they are lines, they are then read back one
by one. -/
theorem readAll_appendAll {path : String} {answers : CreateAnswers} {last : FileSystem}
    (hCreate : create files path answers = (.ok store, filesAfter))
    (hRegular : filesAfter.isRegular store.inode = true)
    (hAppends : store.appendAll filesAfter calls = (records, after, last)) :
    (after.read last .whole).1 = .ok (takenIn calls).flatten ∧
    after.length = (takenIn calls).flatten.length ∧
    List.Forall₂ PartOf records (takenIn calls) ∧
    ((takenIn calls).flatten = (committed records).flatten ↔ ∀ call ∈ calls, TakesWhole call) ∧
    ((∀ call ∈ calls, TakesWhole call) → (∀ packet ∈ committed records, IsLine packet) →
      lines (takenIn calls).flatten = committed records ∧
      unterminated (takenIn calls).flatten = []) := by
  obtain ⟨hExtends, hParts⟩ := extends_appendAll hAppends
  have hShown := flatten_takenIn_eq_iff hAppends
  refine ⟨?_, ?_, hParts, hShown, fun hWhole hLine => ?_⟩
  · have hNode := hExtends.node?_eq _ (node?_of_create hCreate hRegular)
    rw [read_whole, FileSystem.contents, hExtends.inode_eq, hNode]
    dsimp only
    rw [List.append_nil, List.reverse_reverse]
  · rw [hExtends.length_eq, length_of_create hCreate, Nat.zero_add]
  · rw [hShown.mpr hWhole]
    have hLines := lines_flatten_append_of_isLine hLine []
    have hRest := unterminated_flatten_append_of_isLine hLine []
    rw [List.append_nil] at hLines hRest
    exact ⟨hLines.trans (List.append_nil _), hRest⟩

/-- One append is resumed twice, one finds no room half-way, one is refused before it takes a byte,
and the last one goes behind what the second left. -/
theorem readAll_appendAll_of_four_packets :
    let store : FileStore := { path := "/a", inode := 1 }
    let files : FileSystem := { nodes := [.directory 0 [("a", 1)], .file [120]] }
    let opened : FileSystem :=
      { nodes := [.directory 0 [("a", 1)], .file []], locked := [1] }
    let calls : List (Bytes × List WriteAnswer) :=
      [([97, 98, 10], [.accepted 1, .failed .interruptedCall, .accepted 2]),
        ([99, 10], [.accepted 1, .failed .noSpace]), ([100, 10], [.accepted 0]),
        ([101, 10], [.failed .interruptedCall, .accepted 2])]
    create files "/a" = (.ok store, opened) ∧
    ∃ records after last, store.appendAll opened calls = (records, after, last) ∧
      committed records = [[97, 98, 10], [101, 10]] ∧
      (after.read last .whole).1 = .ok [97, 98, 10, 99, 101, 10] ∧ after.length = 6 := by
  intro store files opened calls
  have hCreate : create files "/a" = (.ok store, opened) := by cbv
  obtain ⟨records, after, last, hAppends, hCommitted⟩ : ∃ records after last,
      store.appendAll opened calls = (records, after, last) ∧
      committed records = [[97, 98, 10], [101, 10]] := ⟨_, _, _, rfl, by decide⟩
  obtain ⟨hRead, hLength, -⟩ := readAll_appendAll hCreate rfl hAppends
  exact ⟨hCreate, records, after, last, hAppends, hCommitted, hRead, hLength⟩

/-- What is committed need not be what is read: of an append that finds no room half-way the first
byte stays, in front of the next packet, and a device that takes every byte shows none of them. -/
theorem readAll_ne_committed :
    (∃ (files opened last : FileSystem) (store after : FileStore)
      (records : List (Bytes × Outcome Unit)),
      create files "/a" = (.ok store, opened) ∧
      store.appendAll opened
        [([97, 98, 10], [.accepted 1, .failed .noSpace]), ([99, 10], [.accepted 2])] =
        (records, after, last) ∧
      committed records = [[99, 10]] ∧ (after.read last .whole).1 = .ok [97, 99, 10]) ∧
    ∃ (files opened last : FileSystem) (store after : FileStore)
      (records : List (Bytes × Outcome Unit)),
      create files "/n" = (.ok store, opened) ∧
      store.appendAll opened [([97, 10], [.accepted 2])] = (records, after, last) ∧
      committed records = [[97, 10]] ∧ (after.read last .whole).1 = .ok [] := by
  refine ⟨⟨{}, _, _, _, _, _, by cbv, rfl, by decide, rfl⟩,
    { nodes := [.directory 0 [("n", 1)], .device true] }, _, _, _, _, _, by cbv, rfl, by decide,
    rfl⟩

end PacketLog.FileStore
