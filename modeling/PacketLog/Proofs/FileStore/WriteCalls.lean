import PacketLog.Proofs.FileStore.Appends

/-!
# The write calls of an append

How an append ends is up to the answers of its write calls, of which there may be any
number.  `answers` gives one for every call that could be made; the append makes calls
until all its bytes are taken or one is refused.  If only finitely many answers say that
the call was interrupted, it comes to an end (`exists_offered_eq_nil`), since every other
call takes a byte or is the last one.

Up to the first refusal the file has grown by what the calls took (`append_firstOf`), and
a refusal adds nothing (`append_of_refusal`).  `append_ends` puts the two together, and
adds that the length of a store stays that of its file, whatever becomes of its appends.
A device that keeps nothing parts the two (`length_ne_size_of_device`).
-/

namespace PacketLog

namespace WriteAnswer

def count : WriteAnswer → Nat
  | .accepted count => count
  | .failed _ => 0

/-- The call was interrupted, and is made again. -/
def interrupts : WriteAnswer → Bool
  | .accepted _ => false
  | .failed failure => failure.kind = .interrupted

/-- The call took no byte or failed for good, and is not made again. -/
def refuses : WriteAnswer → Bool
  | .accepted count => count = 0
  | .failed failure => failure.kind ≠ .interrupted

theorem count_of_refuses {answer : WriteAnswer} (hRefuses : answer.refuses = true) :
    answer.count = 0 := by
  cases answer with
  | accepted count => exact of_decide_eq_true hRefuses
  | failed failure => rfl

theorem count_pos {answer : WriteAnswer} (hRefuses : answer.refuses = false)
    (hInterrupts : answer.interrupts = false) : 0 < answer.count := by
  cases answer with
  | accepted count => exact Nat.pos_of_ne_zero (of_decide_eq_false hRefuses)
  | failed failure =>
    have hKind : failure.kind = .interrupted := by simpa [refuses] using hRefuses
    exact absurd hKind (of_decide_eq_false hInterrupts)

end WriteAnswer

namespace FileSystem

theorem appendTo_nil (files : FileSystem) (inode : Nat) : files.appendTo inode [] = files := by
  rw [appendTo]
  split
  · next reversed hNode => exact setNode_self hNode
  · rfl

theorem appendTo_appendTo (files : FileSystem) (inode : Nat) (bytes more : Bytes) :
    (files.appendTo inode bytes).appendTo inode more = files.appendTo inode (bytes ++ more) := by
  by_cases hRegular : files.isRegular inode
  · obtain ⟨reversed, hNode⟩ := exists_of_isRegular hRegular
    rw [appendTo, node?_appendTo hNode bytes]
    simp only [appendTo, hNode, setNode, List.set_set, List.reverse_append, List.append_assoc]
  · have hSame : ∀ added, files.appendTo inode added = files := by
      intro added
      rw [appendTo]
      split
      · rename_i reversed hNode
        exact absurd (by rw [isRegular, hNode]) hRegular
      · rfl
    rw [hSame, hSame, hSame]

theorem contents_appendTo {files : FileSystem} {inode : Nat} (hRegular : files.isRegular inode)
    (bytes : Bytes) : (files.appendTo inode bytes).contents inode =
      files.contents inode ++ bytes := by
  obtain ⟨reversed, hNode⟩ := exists_of_isRegular hRegular
  simp only [contents, node?_appendTo hNode, hNode, List.reverse_append, List.reverse_reverse]

end FileSystem

namespace FileStore

def acceptedIn (answers : Nat → WriteAnswer) : Nat → Nat
  | 0 => 0
  | calls + 1 => acceptedIn answers calls + (answers calls).count

/-- What is left to offer after the first calls. -/
def offered (bytes : Bytes) (answers : Nat → WriteAnswer) (calls : Nat) : Bytes :=
  bytes.drop (acceptedIn answers calls)

/-- The answers of the first calls. -/
def firstOf (answers : Nat → WriteAnswer) (calls : Nat) : List WriteAnswer :=
  (List.range calls).map answers

theorem firstOf_succ (answers : Nat → WriteAnswer) (calls : Nat) :
    firstOf answers (calls + 1) = firstOf answers calls ++ [answers calls] := by
  rw [firstOf, List.range_succ, List.map_append, List.map_singleton, firstOf]

theorem acceptedIn_mono (answers : Nat → WriteAnswer) : Monotone (acceptedIn answers) :=
  monotone_nat_of_le_succ fun _ => Nat.le_add_right _ _

theorem offered_ne_nil {bytes : Bytes} {answers : Nat → WriteAnswer} {fewer calls : Nat}
    (hLe : fewer ≤ calls) (hLeft : offered bytes answers calls ≠ []) :
    offered bytes answers fewer ≠ [] := by
  have hAccepted := acceptedIn_mono answers hLe
  rw [offered, ne_eq, List.drop_eq_nil_iff] at hLeft ⊢
  omega

theorem extend_nil (store : FileStore) (files : FileSystem) : store.extend files [] = store := rfl

theorem extend_extend (store : FileStore) (files : FileSystem) (added more : Bytes) :
    (store.extend files added).extend (files.appendTo store.inode added) more =
      store.extend files (added ++ more) := by
  by_cases hMore : more = []
  · rw [hMore, extend_nil, List.append_nil]
  · have hBoth : added ++ more ≠ [] := fun hNone => hMore (List.append_eq_nil_iff.mp hNone).2
    simp only [extend, if_neg hMore, if_neg hBoth, FileSystem.appendTo_appendTo,
      List.length_append, Nat.add_assoc]

theorem sum_count_firstOf (answers : Nat → WriteAnswer) (calls : Nat) :
    ((firstOf answers calls).map WriteAnswer.count).sum = acceptedIn answers calls := by
  induction calls with
  | zero => rfl
  | succ calls ih =>
    rw [firstOf_succ, List.map_append, List.sum_append, ih, List.map_singleton,
      List.sum_singleton, acceptedIn]

/-! ## The calls one by one -/

variable {store after : FileStore} {files filesAfter : FileSystem} {bytes : Bytes}

/-- An append that has not returned goes on with what is left. -/
theorem append_of_waiting {earlier : List WriteAnswer}
    (hEarlier : store.append files bytes earlier = (.waiting, after, filesAfter))
    (later : List WriteAnswer) :
    store.append files bytes (earlier ++ later) =
      after.append filesAfter (bytes.drop (earlier.map WriteAnswer.count).sum) later := by
  suffices hGoesOn : (store.append files bytes earlier).1 = .waiting →
      store.append files bytes (earlier ++ later) =
        (store.append files bytes earlier).2.1.append (store.append files bytes earlier).2.2
          (bytes.drop (earlier.map WriteAnswer.count).sum) later by
    rw [hEarlier] at hGoesOn
    exact hGoesOn rfl
  clear hEarlier
  induction store, files, bytes, earlier using append_induction with
  | done | zero | failed => exact nofun
  | waiting store files bytes hBytes => exact fun _ => rfl
  | accepted store files bytes count rest hBytes ih =>
    intro hWaiting
    rw [List.cons_append, append_accepted _ _ _ hBytes, ih hWaiting, List.drop_drop, List.map_cons,
      List.sum_cons]
    rfl
  | interrupted store files bytes failure rest hBytes hAgain ih =>
    intro hWaiting
    rw [List.cons_append, append_interrupted _ _ _ hBytes hAgain, ih hWaiting, List.map_cons,
      List.sum_cons, WriteAnswer.count, Nat.zero_add]

theorem append_one (store : FileStore) (files : FileSystem) {answer : WriteAnswer}
    (hBytes : bytes ≠ []) (hRefuses : answer.refuses = false) :
    store.append files bytes [answer] =
      (if bytes.drop answer.count = [] then .ok () else .waiting,
        store.extend files (bytes.take answer.count),
        files.appendTo store.inode (bytes.take answer.count)) := by
  rcases answer with ⟨_ | count⟩ | failure
  · cases hRefuses
  · rw [append_accepted _ _ _ hBytes]
    rfl
  · have hAgain : failure.kind = .interrupted := by simpa [WriteAnswer.refuses] using hRefuses
    rw [append_interrupted _ _ _ hBytes hAgain, WriteAnswer.count, List.drop_zero, List.take_zero,
      extend_nil, FileSystem.appendTo_nil]
    rfl

/-- A refused call adds nothing, and its error says how long the store is. -/
theorem append_one_of_refusal (store : FileStore) (files : FileSystem) {answer : WriteAnswer}
    (hBytes : bytes ≠ []) (hRefuses : answer.refuses = true) :
    ∃ error, store.append files bytes [answer] = (.error error, store, files) ∧
      error.kind = .io ∧ error.offset = some store.length := by
  rcases answer with ⟨_ | count⟩ | failure
  · exact ⟨_, append_zero _ _ _ hBytes, rfl, rfl⟩
  · cases hRefuses
  · have hFinal : failure.kind ≠ .interrupted := of_decide_eq_true hRefuses
    exact ⟨_, append_failed _ _ _ hBytes hFinal, rfl, rfl⟩

/-! ## All the calls -/

variable {answers : Nat → WriteAnswer}

/-- As long as no call is refused, the file has grown by what the calls took. -/
theorem append_firstOf (store : FileStore) (files : FileSystem) {calls : Nat}
    (hGoesOn : ∀ n < calls, offered bytes answers n ≠ [] ∧ (answers n).refuses = false) :
    store.append files bytes (firstOf answers calls) =
      (if offered bytes answers calls = [] then .ok () else .waiting,
        store.extend files (bytes.take (acceptedIn answers calls)),
        files.appendTo store.inode (bytes.take (acceptedIn answers calls))) := by
  induction calls with
  | zero =>
    have hNone : bytes.take (acceptedIn answers 0) = [] := List.take_zero
    rw [hNone, extend_nil, FileSystem.appendTo_nil]
    rfl
  | succ calls ih =>
    obtain ⟨hLeft, hTaken⟩ := hGoesOn calls (Nat.lt_succ_self calls)
    have hBefore := ih fun n hLt => hGoesOn n (Nat.lt_succ_of_lt hLt)
    rw [if_neg hLeft] at hBefore
    rw [firstOf_succ, append_of_waiting hBefore, sum_count_firstOf, ← offered]
    rw [append_one _ _ hLeft hTaken, offered, offered, List.drop_drop, extend_extend,
      show (store.extend files _).inode = store.inode from rfl, FileSystem.appendTo_appendTo,
      ← List.take_add, acceptedIn]

/-- The first refusal ends the append with an error, and adds nothing. -/
theorem append_of_refusal (store : FileStore) (files : FileSystem) {calls : Nat}
    (hGoesOn : ∀ n < calls, offered bytes answers n ≠ [] ∧ (answers n).refuses = false)
    (hLeft : offered bytes answers calls ≠ []) (hRefuses : (answers calls).refuses = true) :
    ∃ error, store.append files bytes (firstOf answers (calls + 1)) =
        (.error error, store.extend files (bytes.take (acceptedIn answers (calls + 1))),
          files.appendTo store.inode (bytes.take (acceptedIn answers (calls + 1)))) ∧
      error.kind = .io ∧
      error.offset =
        some (store.extend files (bytes.take (acceptedIn answers (calls + 1)))).length := by
  have hBefore := append_firstOf store files hGoesOn
  rw [if_neg hLeft] at hBefore
  rw [firstOf_succ, append_of_waiting hBefore, sum_count_firstOf, acceptedIn,
    WriteAnswer.count_of_refuses hRefuses, Nat.add_zero]
  exact append_one_of_refusal _ _ hLeft hRefuses

/-- Where no call is refused, and calls are interrupted finitely often, all bytes are taken. -/
theorem exists_offered_eq_nil (hInterrupts : {n | (answers n).interrupts}.Finite)
    (hGoesOn : ∀ n, offered bytes answers n ≠ [] → (answers n).refuses = false) :
    ∃ n, offered bytes answers n = [] := by
  by_contra hNever
  have hLeft : ∀ n, offered bytes answers n ≠ [] := fun n hNone => hNever ⟨n, hNone⟩
  obtain ⟨last, hLast⟩ := hInterrupts.bddAbove
  have hTaken : ∀ n, last < n → 0 < (answers n).count := by
    intro n hLt
    refine WriteAnswer.count_pos (hGoesOn n (hLeft n)) (Bool.eq_false_iff.mpr fun hAgain => ?_)
    have hLe : n ≤ last := hLast hAgain
    omega
  have hAccepted : ∀ more, more ≤ acceptedIn answers (last + 1 + more) := by
    intro more
    induction more with
    | zero => exact Nat.zero_le _
    | succ more ih =>
      have hOne := hTaken (last + 1 + more) (by omega)
      rw [← Nat.add_assoc, acceptedIn]
      omega
  have hAll := hAccepted bytes.length
  exact hLeft _ (List.drop_eq_nil_iff.mpr hAll)

/-! ## What an append comes to -/

/-- An append has not returned as long as there is something to offer and no call is refused. -/
theorem append_firstOf_waiting (store : FileStore) (files : FileSystem) {calls : Nat}
    (hGoesOn : ∀ n < calls, offered bytes answers n ≠ [] ∧ (answers n).refuses = false)
    (hLeft : offered bytes answers calls ≠ []) :
    (store.append files bytes (firstOf answers calls)).1 = .waiting := by
  rw [append_firstOf store files hGoesOn, if_neg hLeft]

/-- An append returns after the calls that it takes, and what it then answers. -/
structure Returns (store : FileStore) (files : FileSystem) (bytes : Bytes)
    (answers : Nat → WriteAnswer) (calls : Nat) (outcome : Outcome Unit) : Prop where
  waiting : ∀ fewer < calls, (store.append files bytes (firstOf answers fewer)).1 = .waiting
  append_eq : store.append files bytes (firstOf answers calls) =
    (outcome, store.extend files (bytes.take (acceptedIn answers calls)),
      files.appendTo store.inode (bytes.take (acceptedIn answers calls)))

theorem exists_returns_ok (store : FileStore) (files : FileSystem)
    (hInterrupts : {n | (answers n).interrupts}.Finite)
    (hGoesOn : ∀ n, offered bytes answers n ≠ [] → (answers n).refuses = false) :
    ∃ calls, Returns store files bytes answers calls (.ok ()) ∧
      bytes.take (acceptedIn answers calls) = bytes := by
  have hEnds := exists_offered_eq_nil hInterrupts hGoesOn
  have hBefore : ∀ n < Nat.find hEnds, offered bytes answers n ≠ [] ∧
      (answers n).refuses = false := by
    intro n hLt
    have hLeft := Nat.find_min hEnds hLt
    exact ⟨hLeft, hGoesOn n hLeft⟩
  have hNone := Nat.find_spec hEnds
  refine ⟨Nat.find hEnds, ⟨fun fewer hFewer => ?_, ?_⟩, ?_⟩
  · exact append_firstOf_waiting store files (fun n hLt => hBefore n (hLt.trans hFewer))
      (hBefore fewer hFewer).1
  · rw [append_firstOf store files hBefore, if_pos hNone]
  · rw [offered, List.drop_eq_nil_iff] at hNone
    exact List.take_of_length_le hNone

theorem exists_returns_error (store : FileStore) (files : FileSystem)
    (hRefused : ∃ n, offered bytes answers n ≠ [] ∧ (answers n).refuses = true) :
    ∃ calls error, Returns store files bytes answers calls (.error error) ∧ error.kind = .io ∧
      error.offset = some (store.extend files (bytes.take (acceptedIn answers calls))).length := by
  obtain ⟨hLeft, hRefuses⟩ := Nat.find_spec hRefused
  have hBefore : ∀ n < Nat.find hRefused, offered bytes answers n ≠ [] ∧
      (answers n).refuses = false := by
    intro n hLt
    have hHere := offered_ne_nil hLt.le hLeft
    exact ⟨hHere, Bool.eq_false_iff.mpr fun h => Nat.find_min hRefused hLt ⟨hHere, h⟩⟩
  obtain ⟨error, hAppend, hKind, hOffset⟩ := append_of_refusal store files hBefore hLeft hRefuses
  refine ⟨Nat.find hRefused + 1, error, ⟨fun fewer hFewer => ?_, hAppend⟩, hKind, hOffset⟩
  have hLe : fewer ≤ Nat.find hRefused := Nat.lt_succ_iff.mp hFewer
  exact append_firstOf_waiting store files (fun n hLt => hBefore n (hLt.trans_le hLe))
    (offered_ne_nil hLe hLeft)

theorem length_eq_size {path : String} {creation : CreateAnswers}
    {calls : List (Bytes × List WriteAnswer)} {records : List (Bytes × Outcome Unit)}
    {last : FileSystem} (hCreate : create files path creation = (.ok store, filesAfter))
    (hRegular : filesAfter.isRegular store.inode)
    (hAppends : store.appendAll filesAfter calls = (records, after, last)) :
    after.length = (last.contents after.inode).length := by
  obtain ⟨hAdded, -⟩ := extends_appendAll hAppends
  have hNode := hAdded.node?_eq _ (node?_of_create hCreate hRegular)
  rw [hAdded.length_eq, length_of_create hCreate, hAdded.inode_eq, FileSystem.contents, hNode]
  simp

/-- **An append ends, and has added what its write calls took.**  The calls may take any number of
bytes, be interrupted finitely often, and be refused.  The append returns without an error exactly
if none is refused while there is something left to offer, and has then added the whole packet.
Otherwise it has added the bytes taken before, and its error is of the kind `io` and tells the new
length.  A regular file grows by these bytes, and the length of a store stays that of its file. -/
theorem append_ends (store : FileStore) (files : FileSystem) (bytes : Bytes)
    (answers : Nat → WriteAnswer) (hInterrupts : {n | (answers n).interrupts}.Finite) :
    (∃ calls outcome,
      let added := bytes.take (acceptedIn answers calls)
      let after := store.extend files added
      let filesAfter := files.appendTo store.inode added
      (∀ fewer < calls, (store.append files bytes (firstOf answers fewer)).1 = .waiting) ∧
      store.append files bytes (firstOf answers calls) = (outcome, after, filesAfter) ∧
      (outcome = .ok () ∧ added = bytes ∨
        ∃ error, outcome = .error error ∧ error.kind = .io ∧ error.offset = some after.length) ∧
      (outcome = .ok () ↔ ∀ n, offered bytes answers n ≠ [] → (answers n).refuses = false) ∧
      (files.isRegular store.inode →
        filesAfter.contents store.inode = files.contents store.inode ++ added)) ∧
    ∀ path creation fresh opened calls records last filesLast,
      create files path creation = (.ok fresh, opened) → opened.isRegular fresh.inode →
      fresh.appendAll opened calls = (records, last, filesLast) →
      last.length = (filesLast.contents last.inode).length := by
  refine ⟨?_, fun _ _ _ _ _ _ _ _ hCreate hRegular hAppends =>
    length_eq_size hCreate hRegular hAppends⟩
  by_cases hGoesOn : ∀ n, offered bytes answers n ≠ [] → (answers n).refuses = false
  · obtain ⟨calls, hReturns, hWhole⟩ := exists_returns_ok store files hInterrupts hGoesOn
    exact ⟨calls, .ok (), hReturns.waiting, hReturns.append_eq, Or.inl ⟨rfl, hWhole⟩,
      iff_of_true rfl hGoesOn, fun hRegular => FileSystem.contents_appendTo hRegular _⟩
  · have hRefused : ∃ n, offered bytes answers n ≠ [] ∧ (answers n).refuses = true := by
      simpa only [not_forall, exists_prop, Bool.not_eq_false] using hGoesOn
    obtain ⟨calls, error, hReturns, hKind, hOffset⟩ := exists_returns_error store files hRefused
    exact ⟨calls, .error error, hReturns.waiting, hReturns.append_eq,
      Or.inr ⟨error, rfl, hKind, hOffset⟩, iff_of_false nofun hGoesOn,
      fun hRegular => FileSystem.contents_appendTo hRegular _⟩

/-- The disk is full after one byte and an interrupted call. -/
theorem append_ends_of_full_disk :
    let store : FileStore := { path := "/a", inode := 1, length := 1 }
    let files : FileSystem :=
      { nodes := [.directory 0 [("a", 1)], .file [120]], locked := [1] }
    let answers : Nat → WriteAnswer
      | 0 => .accepted 1
      | 1 => .failed .interruptedCall
      | _ => .failed .noSpace
    {n | (answers n).interrupts}.Finite ∧
    ∃ calls error, store.append files [97, 98, 10] (firstOf answers calls) =
        (.error error, store.extend files [97], files.appendTo 1 [97]) ∧
      error.kind = .io ∧ error.offset = some 2 ∧
      (files.appendTo 1 [97]).contents 1 = [120, 97] := by
  intro store files answers
  have hInterrupts : {n | (answers n).interrupts}.Finite := by
    refine (Set.finite_singleton 1).subset fun n hAgain => ?_
    rcases n with _ | _ | n
    · cases hAgain
    · rfl
    · cases hAgain
  obtain ⟨⟨calls, outcome, hWaiting, hAppend, hOutcome, hOk, hContents⟩, -⟩ :=
    append_ends store files [97, 98, 10] answers hInterrupts
  have hRefused : outcome ≠ .ok () := fun hOutcome =>
    absurd (hOk.mp hOutcome 2 (by decide)) (by decide)
  obtain ⟨hEnd, -⟩ | ⟨error, rfl, hKind, hOffset⟩ := hOutcome
  · exact absurd hEnd hRefused
  · have hFew : ∀ fewer < 3, (store.append files [97, 98, 10] (firstOf answers fewer)).1 =
        .waiting := by decide
    have hEnough : (store.append files [97, 98, 10] (firstOf answers 3)).1 ≠ .waiting := by decide
    have hCalls : calls = 3 := by
      rcases Nat.lt_trichotomy calls 3 with hLt | hSame | hGt
      · have hStill := hFew calls hLt
        rw [hAppend] at hStill
        cases hStill
      · exact hSame
      · exact absurd (hWaiting 3 hGt) hEnough
    subst hCalls
    exact ⟨hInterrupts, 3, error, hAppend, hKind, hOffset, hContents rfl⟩

/-- A device takes every byte and keeps none, so what its store counts is not there. -/
theorem length_ne_size_of_device :
    ∃ (files opened last : FileSystem) (store after : FileStore),
      create files "/n" = (.ok store, opened) ∧
      store.append opened [97, 10] (firstOf (fun _ => .accepted 2) 1) = (.ok (), after, last) ∧
      after.length = 2 ∧ last.contents after.inode = [] :=
  ⟨{ nodes := [.directory 0 [("n", 1)], .device true] }, _, _, _, _, by cbv, rfl, rfl, rfl⟩

end FileStore

end PacketLog
