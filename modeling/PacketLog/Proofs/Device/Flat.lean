import PacketLog.Proofs.Device.Reads

/-!
# A handle as a cursor over flat bytes

As long as nothing is written, a handle does not see where entries end: it moves over the
contents of the ring as over one array of bytes.  `FlatStep s position` lists what a call may
answer at `position` over the bytes `s`, and where it leaves the handle, and `FlatRun` strings
the calls of a run together.

A single read may come short, at the end of an entry, so it brings some of the bytes that come
next.  Whoever wants more reads again.  `Fills` is the loop that fills a buffer and `Drains` the
one that reads to the end with buffers of any sizes; in both an interrupted read is made again.
Neither the ends of entries nor the sizes nor the interruptions decide what such a loop brings
(`Fills.eq`, `Drains.eq`), and it is what `readExact` and `readToEnd?` answer at once.

The end of every range asked for is a word, since neither an entry nor a buffer is longer than
can be addressed (`answers_of_addressable`).
-/

namespace PacketLog

open Bytes

/-! ## One read of the ring -/

namespace Ring

variable {ring : Ring} {offset count : Nat}

/-- Half a word for the entry and half for the buffer. -/
theorem answers_of_addressable (hEntries : ∀ entry ∈ ring.entries, entry.length ≤ addressableBytes)
    (hCount : count ≤ addressableBytes) (offset : Nat) : ring.Answers count offset := by
  intro located hFind
  obtain ⟨hLies, hOffset⟩ := liesIn_of_find hFind
  have hEntry := hEntries located.entry (List.mem_of_getElem? hLies.entry_eq)
  have hStart := hLies.startOf_le
  have hEnd := hLies.lt_end
  simp only [addressableBytes, Word.signedBound, Word.bound] at hEntry hCount ⊢
  omega

/-- A read whose range ends at a word has an answer. -/
theorem Answers.exists_readAt? (hAnswers : ring.Answers count offset) :
    ∃ chunk, ring.readAt? offset count = some chunk := by
  by_cases hCount : count = 0
  · exact ⟨[], by rw [readAt?, if_pos hCount]⟩
  · rw [readAt?, if_neg hCount]
    cases hFind : ring.find offset with
    | none => exact ⟨[], rfl⟩
    | some located =>
      have hWord : Word.add? located.offset count = some (located.offset + count) :=
        Word.add?_eq_some.mpr ⟨rfl, hAnswers located hFind⟩
      exact ⟨(located.entry.drop located.offset).take count, by dsimp only; rw [hWord]; rfl⟩

theorem isPrefix_take_of_readAt? {chunk : Bytes}
    (hRead : ring.readAt? offset count = some chunk) :
    chunk <+: (ring.contents.drop offset).take count := by
  have hHere := isPrefix_of_readAt? hRead
  by_cases hChunk : chunk = []
  · rw [hChunk]
    exact List.nil_prefix
  · obtain ⟨index, entry, -, hTaken⟩ := liesIn_of_readAt? hRead hChunk
    have hLength : chunk.length ≤ count := by
      rw [hTaken, List.length_take]
      exact Nat.min_le_left _ _
    rw [List.prefix_iff_eq_take.mp hHere]
    exact List.take_prefix_take_left hLength

theorem take_eq_nil_of_readAt? (hTotal : ring.totalBytes = ring.contents.length)
    (hRead : ring.readAt? offset count = some []) :
    (ring.contents.drop offset).take count = [] := by
  by_cases hCount : count = 0
  · rw [hCount, List.take_zero]
  · have hPast := length_le_of_readAt?_eq_nil hTotal hCount hRead
    rw [List.drop_eq_nil_of_le hPast, List.take_nil]

/-- What a read brings and what comes behind it are what was there. -/
theorem append_drop_of_readAt? {chunk : Bytes} (hRead : ring.readAt? offset count = some chunk) :
    chunk ++ ring.contents.drop (offset + chunk.length) = ring.contents.drop offset := by
  obtain ⟨rest, hRest⟩ := isPrefix_of_readAt? hRead
  rw [← List.drop_drop, ← hRest, List.drop_left]

theorem append_take_of_readAt? {chunk : Bytes} (hRead : ring.readAt? offset count = some chunk) :
    chunk ++ (ring.contents.drop (offset + chunk.length)).take (count - chunk.length) =
      (ring.contents.drop offset).take count := by
  have hLength := (isPrefix_take_of_readAt? hRead).length_le
  rw [List.length_take] at hLength
  have hWhole : chunk.take count = chunk := List.take_of_length_le (by omega)
  rw [← append_drop_of_readAt? hRead, List.take_append, hWhole]

end Ring

/-! ## Loops of reads -/

namespace Handle

/-- Reads into a buffer of `count` bytes until it is full or nothing comes; an interrupted read is
made again.  `bytes` have come in the end. -/
inductive Fills (device : Device) : Handle → Nat → Bytes → Handle → Prop
  | full {handle : Handle} : Fills device handle 0 [] handle
  | ended {handle next : Handle} {count : Nat} {attempts : List Attempt} (hCount : count ≠ 0)
      (hRead : handle.read device count attempts = (.ok [], next)) :
      Fills device handle count [] next
  | more {handle next last : Handle} {count : Nat} {attempts : List Attempt} {chunk rest : Bytes}
      (hRead : handle.read device count attempts = (.ok chunk, next)) (hChunk : chunk ≠ [])
      (hRest : Fills device next (count - chunk.length) rest last) :
      Fills device handle count (chunk ++ rest) last
  | again {handle next last : Handle} {count : Nat} {attempts : List Attempt} {error : Error}
      {bytes : Bytes} (hRead : handle.read device count attempts = (.error error, next))
      (hKind : error.kind = .interrupted) (hRest : Fills device next count bytes last) :
      Fills device handle count bytes last

/-- Reads with buffers of any sizes until nothing comes; an interrupted read is made again. -/
inductive Drains (device : Device) : Handle → Bytes → Handle → Prop
  | ended {handle next : Handle} {count : Nat} {attempts : List Attempt} (hCount : count ≠ 0)
      (hRead : handle.read device count attempts = (.ok [], next)) :
      Drains device handle [] next
  | more {handle next last : Handle} {count : Nat} {attempts : List Attempt} {chunk rest : Bytes}
      (hRead : handle.read device count attempts = (.ok chunk, next)) (hChunk : chunk ≠ [])
      (hRest : Drains device next rest last) :
      Drains device handle (chunk ++ rest) last
  | again {handle next last : Handle} {count : Nat} {attempts : List Attempt} {error : Error}
      {bytes : Bytes} (hRead : handle.read device count attempts = (.error error, next))
      (hKind : error.kind = .interrupted) (hRest : Drains device next bytes last) :
      Drains device handle bytes last

variable {device : Device} {handle next last : Handle} {count : Nat} {attempts : List Attempt}
  {bytes : Bytes}

theorem readAt?_of_read {chunk : Bytes}
    (hRead : handle.read device count attempts = (.ok chunk, next)) :
    device.ring.readAt? handle.position count = some chunk ∧
      next = { position := handle.position + chunk.length } := by
  obtain ⟨found, hFound, hHere⟩ | ⟨hNever, -⟩ := handle.read_cases device count attempts
  · rw [hRead] at hFound
    obtain ⟨hChunk, rfl⟩ := Prod.mk.inj hFound
    obtain rfl := Outcome.ok.inj hChunk
    exact ⟨hHere, rfl⟩
  · exact absurd (congrArg Prod.fst hRead) (hNever chunk)

theorem eq_of_read_error {error : Error}
    (hRead : handle.read device count attempts = (.error error, next)) : next = handle := by
  obtain ⟨chunk, hFound, -⟩ | ⟨-, hSame⟩ := handle.read_cases device count attempts
  · rw [hRead] at hFound
    cases (Prod.mk.inj hFound).1
  · rw [hRead] at hSame
    exact hSame

theorem position_add_length_drop (position : Nat) (s : Bytes) :
    position + (s.drop position).length = max position s.length := by
  rw [List.length_drop]
  omega

/-- **Filling a buffer.**  It takes the bytes that come next, as many as it has room for. -/
theorem Fills.eq (hTotal : device.ring.totalBytes = device.ring.contents.length)
    (hFills : Fills device handle count bytes last) :
    bytes = (device.ring.contents.drop handle.position).take count ∧
      last.position = handle.position + bytes.length := by
  induction hFills with
  | full => simp
  | ended hCount hRead =>
    obtain ⟨hHere, rfl⟩ := readAt?_of_read hRead
    exact ⟨(Ring.take_eq_nil_of_readAt? hTotal hHere).symm, rfl⟩
  | more hRead hChunk hRest ih =>
    obtain ⟨hHere, rfl⟩ := readAt?_of_read hRead
    obtain ⟨rfl, hLast⟩ := ih
    refine ⟨Ring.append_take_of_readAt? hHere, ?_⟩
    rw [hLast, List.length_append, Nat.add_assoc]
  | again hRead hKind hRest ih =>
    obtain rfl := eq_of_read_error hRead
    exact ih

/-- **Reading to the end.**  It brings everything from the position on. -/
theorem Drains.eq (hTotal : device.ring.totalBytes = device.ring.contents.length)
    (hDrains : Drains device handle bytes last) :
    bytes = device.ring.contents.drop handle.position ∧
      last.position = handle.position + bytes.length := by
  induction hDrains with
  | ended hCount hRead =>
    obtain ⟨hHere, rfl⟩ := readAt?_of_read hRead
    have hPast := Ring.length_le_of_readAt?_eq_nil hTotal hCount hHere
    exact ⟨(List.drop_eq_nil_of_le hPast).symm, rfl⟩
  | more hRead hChunk hRest ih =>
    obtain ⟨hHere, rfl⟩ := readAt?_of_read hRead
    obtain ⟨rfl, hLast⟩ := ih
    refine ⟨Ring.append_drop_of_readAt? hHere, ?_⟩
    rw [hLast, List.length_append, Nat.add_assoc]
  | again hRead hKind hRest ih =>
    obtain rfl := eq_of_read_error hRead
    exact ih

end Handle

/-! ## The loops at once -/

theorem Ring.collect_cursor {ring : Ring} (hTotal : ring.totalBytes = ring.contents.length)
    {most : Nat} (hAnswers : ∀ count ≤ most, ∀ offset, ring.Answers count offset) {count : Nat}
    (hCount : count ≤ most) (offset : Nat) :
    (ring.cursor offset).collect count = ((ring.contents.drop offset).take count, false) := by
  induction hLeft : count using Nat.strongRecOn generalizing count offset with
  | ind left ih =>
    subst hLeft
    obtain ⟨chunk, hHere⟩ := (hAnswers count hCount offset).exists_readAt?
    have hRead := hHere
    rw [Ring.readAt?_eq hTotal] at hRead
    obtain ⟨⟨found, next⟩, hNext, rfl⟩ := Option.map_eq_some_iff.mp hRead
    dsimp only at hHere
    unfold Cursor.collect
    split
    · next hNone => cases hNext.symm.trans hNone
    · next chunk after hSome =>
      obtain ⟨rfl, rfl⟩ := Prod.mk.inj (Option.some.inj (hNext.symm.trans hSome))
      split
      · next hChunk =>
        subst hChunk
        rw [Ring.take_eq_nil_of_readAt? hTotal hHere]
      · next hChunk =>
        have hLength := (Ring.isPrefix_take_of_readAt? hHere).length_le
        have hPos := List.length_pos_iff.mpr hChunk
        rw [List.length_take] at hLength
        have hLater := ih (count - found.length) (by omega) (by omega) (offset + found.length) rfl
        rw [Ring.cursor] at hLater
        rw [Cursor.eq_skip_of_read? hNext, hLater]
        dsimp only
        rw [Ring.append_take_of_readAt? hHere]

namespace Handle

theorem readExact_eq {ring : Ring} (hTotal : ring.totalBytes = ring.contents.length) {most : Nat}
    (hAnswers : ∀ count ≤ most, ∀ offset, ring.Answers count offset) (handle : Handle)
    {count : Nat} (hCount : count ≤ most) :
    let bytes := (ring.contents.drop handle.position).take count
    handle.readExact ring count =
      (some (if bytes.length = count then .ok bytes else .error .unexpectedEnd),
        { position := handle.position + bytes.length }) := by
  intro bytes
  have hCollect : (ring.cursor handle.position).collect count = (bytes, false) :=
    Ring.collect_cursor hTotal hAnswers hCount handle.position
  rw [readExact, hCollect]
  dsimp only
  rw [if_neg Bool.false_ne_true]
  split <;> rfl

theorem readToEnd?_eq {ring : Ring} (hTotal : ring.totalBytes = ring.contents.length)
    (hEntries : ∀ entry ∈ ring.entries, entry.length ≤ Ring.addressableBytes) (handle : Handle)
    {size : Nat} (hPos : 0 < size) (hSize : size ≤ Ring.addressableBytes) :
    let bytes := ring.contents.drop handle.position
    handle.readToEnd? ring size = (some bytes, { position := handle.position + bytes.length }) := by
  intro bytes
  have hWord : size < Word.bound := by
    simp only [Ring.addressableBytes, Word.signedBound, Word.bound] at hSize ⊢
    omega
  obtain ⟨chunks, hReads⟩ := Ring.exists_readsOn hTotal hEntries hPos hWord handle.position
    (Ring.answers_of_addressable hEntries hSize handle.position)
  have hWalk : ring.walk? handle.position size = some chunks := hReads.walk?_eq hTotal
  have hAll : chunks.flatten = bytes := hReads.flatten_eq hTotal (Nat.ne_of_gt hPos)
  rw [readToEnd?, hWalk]
  dsimp only
  rw [hAll]

end Handle

/-! ## Calls over flat bytes -/

namespace SeekTarget

/-- The position from which a handle at `position` over `length` bytes counts. -/
def origin (position length : Nat) : SeekTarget → Nat
  | start _ => 0
  | current _ => position
  | finish _ => length

def delta : SeekTarget → Int
  | start offset => offset
  | current delta => delta
  | finish delta => delta

/-- Only a seek from the end has to know how many bytes there are. -/
def locks : SeekTarget → Bool
  | finish _ => true
  | _ => false

end SeekTarget

/-- Buffers are no longer than can be addressed, and a position to go to is a word. -/
def DeskAct.Fits : DeskAct → Prop
  | .read count | .readExact count => count ≤ Ring.addressableBytes
  | .seek (.start offset) => offset < Word.bound
  | _ => True

/-- A call through a handle at `position` over the bytes `s`, where the wait for the lock comes to
`lock`: what it may answer, and where it leaves the handle. -/
inductive FlatStep (s : Bytes) (position : Nat) (lock : Acquisition) :
    DeskAct → DeskAnswer → Nat → Prop
  | reopened : FlatStep s position lock .reopen (.done (.ok ())) 0
  /-- A read brings some of the bytes that come next, and none only if there are none. -/
  | read {count : Nat} {chunk : Bytes} (hLock : count ≠ 0 → lock = .acquired)
      (hChunk : chunk <+: (s.drop position).take count)
      (hNone : chunk = [] → (s.drop position).take count = []) :
      FlatStep s position lock (.read count) (.bytes (.ok chunk)) (position + chunk.length)
  | readInterrupted {count : Nat} (hCount : count ≠ 0) (hLock : lock = .interrupted) :
      FlatStep s position lock (.read count) (.bytes (.error .interrupted)) position
  | readWaiting {count : Nat} (hCount : count ≠ 0) (hLock : lock = .waiting) :
      FlatStep s position lock (.read count) (.bytes .waiting) position
  | readExact {count : Nat} (hLeft : count ≤ s.length - position) :
      FlatStep s position lock (.readExact count)
        (.exact (some (.ok ((s.drop position).take count)))) (position + count)
  | cameShort {count : Nat} (hLeft : s.length - position < count) :
      FlatStep s position lock (.readExact count) (.exact (some (.error .unexpectedEnd)))
        (max position s.length)
  | readToEnd :
      FlatStep s position lock .readToEnd (.bytes (.ok (s.drop position))) (max position s.length)
  | sought {target : SeekTarget} {next : Nat} (hLock : target.locks → lock = .acquired)
      (hNext : (next : Int) = target.origin position s.length + target.delta)
      (hWord : next < Word.bound) :
      FlatStep s position lock (.seek target) (.number (.ok next)) next
  | misplaced {target : SeekTarget} (hLock : target.locks → lock = .acquired)
      (hNoWord : ∀ next : Nat, next < Word.bound →
        (next : Int) ≠ target.origin position s.length + target.delta) :
      FlatStep s position lock (.seek target)
        (.number (.error (Handle.misplaced (target.origin position s.length)))) position
  | seekInterrupted {target : SeekTarget} (hLocks : target.locks) (hLock : lock = .interrupted) :
      FlatStep s position lock (.seek target) (.number (.error .interrupted)) position
  | seekWaiting {target : SeekTarget} (hLocks : target.locks) (hLock : lock = .waiting) :
      FlatStep s position lock (.seek target) (.number .waiting) position

/-- The recorded calls through one handle take it from `position` to a last one, while calls
through other handles leave it where it is. -/
inductive FlatRun (s : Bytes) (name : String) :
    Nat → List (DeskCall × DeskAnswer) → Nat → Prop
  | nil {position : Nat} : FlatRun s name position [] position
  | own {position next last : Nat} {call : DeskCall} {answer : DeskAnswer}
      {later : List (DeskCall × DeskAnswer)} (hName : call.name = name)
      (hStep : FlatStep s position (Patience.interruptible.acquire call.attempts) call.act answer
        next)
      (hLater : FlatRun s name next later last) :
      FlatRun s name position ((call, answer) :: later) last
  | other {position last : Nat} {call : DeskCall} {answer : DeskAnswer}
      {later : List (DeskCall × DeskAnswer)} (hName : call.name ≠ name)
      (hLater : FlatRun s name position later last) :
      FlatRun s name position ((call, answer) :: later) last

theorem FlatStep.lt_bound {s : Bytes} {position next : Nat} {lock : Acquisition} {act : DeskAct}
    {answer : DeskAnswer} (hStep : FlatStep s position lock act answer next)
    (hLength : s.length < Word.bound) (hPosition : position < Word.bound) :
    next < Word.bound := by
  have hLeft : (s.drop position).length = s.length - position := List.length_drop
  cases hStep with
  | reopened => decide
  | read hLock hChunk hNone =>
    have hLe := hChunk.length_le
    rw [List.length_take] at hLe
    omega
  | readExact hLeft => omega
  | cameShort hLeft => exact max_lt hPosition hLength
  | readToEnd => exact max_lt hPosition hLength
  | sought hLock hNext hWord => exact hWord
  | _ => exact hPosition

theorem FlatRun.lt_bound {s : Bytes} {name : String} {position last : Nat}
    {record : List (DeskCall × DeskAnswer)} (hRun : FlatRun s name position record last)
    (hLength : s.length < Word.bound) (hPosition : position < Word.bound) : last < Word.bound := by
  induction hRun with
  | nil => exact hPosition
  | own hName hStep hLater ih => exact ih (hStep.lt_bound hLength hPosition)
  | other hName hLater ih => exact ih hPosition

/-! ## What a handle does -/

namespace Handle

variable {device : Device} {handle : Handle} {count : Nat} {attempts : List Attempt}

theorem read_of_readAt? {chunk : Bytes}
    (hHere : device.ring.readAt? handle.position count = some chunk) (hCount : count ≠ 0) :
    handle.read device count attempts =
      match Patience.interruptible.acquire attempts with
      | .acquired => (.ok chunk, { position := handle.position + chunk.length })
      | .interrupted => (.error .interrupted, handle)
      | .waiting => (.waiting, handle) := by
  rw [Handle.read, if_neg hCount]
  cases Patience.interruptible.acquire attempts with
  | acquired =>
    dsimp only [Acquisition.enter]
    rw [Handle.read?, hHere]
    rfl
  | interrupted => rfl
  | waiting => rfl

theorem flatStep_read (hTotal : device.ring.totalBytes = device.ring.contents.length)
    (hAnswers : device.ring.Answers count handle.position) :
    let answer := handle.read device count attempts
    FlatStep device.ring.contents handle.position (Patience.interruptible.acquire attempts)
      (.read count) (.bytes answer.1) answer.2.position := by
  intro answer
  by_cases hCount : count = 0
  · have hAnswer : answer = (.ok [], handle) := by
      show handle.read device count attempts = _
      rw [Handle.read, if_pos hCount]
    rw [hAnswer]
    refine .read (fun h => absurd hCount h) List.nil_prefix fun _ => ?_
    rw [hCount, List.take_zero]
  · obtain ⟨chunk, hHere⟩ := hAnswers.exists_readAt?
    have hAnswer : answer = _ := read_of_readAt? hHere hCount
    cases hLock : Patience.interruptible.acquire attempts with
    | acquired =>
      rw [hLock] at hAnswer
      rw [hAnswer]
      refine .read (fun _ => rfl) (Ring.isPrefix_take_of_readAt? hHere) fun hChunk => ?_
      subst hChunk
      exact Ring.take_eq_nil_of_readAt? hTotal hHere
    | interrupted =>
      rw [hLock] at hAnswer
      rw [hAnswer]
      exact .readInterrupted hCount rfl
    | waiting =>
      rw [hLock] at hAnswer
      rw [hAnswer]
      exact .readWaiting hCount rfl

/-- A move is exact, or there is none. -/
theorem flatStep_moveFrom {s : Bytes} {lock : Acquisition} (target : SeekTarget)
    (hLock : target.locks → lock = .acquired) :
    let answer := handle.moveFrom (target.origin handle.position s.length) target.delta
    FlatStep s handle.position lock (.seek target) (.number answer.1) answer.2.position := by
  intro answer
  cases hSum : Word.addSigned? (target.origin handle.position s.length) target.delta with
  | some next =>
    have hAnswer : answer = (.ok next, { position := next }) := by
      show handle.moveFrom _ _ = _
      rw [moveFrom, hSum]
    obtain ⟨hNext, hWord⟩ := Word.addSigned?_eq_some.mp hSum
    rw [hAnswer]
    exact .sought hLock hNext.symm hWord
  | none =>
    have hAnswer : answer =
        (.error (misplaced (target.origin handle.position s.length)), handle) := by
      show handle.moveFrom _ _ = _
      rw [moveFrom, hSum]
    rw [hAnswer]
    refine .misplaced hLock fun next hWord hNext => ?_
    rw [Word.addSigned?_eq_some.mpr ⟨hNext.symm, hWord⟩] at hSum
    cases hSum

theorem flatStep_seek (hTotal : device.ring.totalBytes = device.ring.contents.length)
    {target : SeekTarget} (hFits : (DeskAct.seek target).Fits) :
    let answer := handle.seek device target attempts
    FlatStep device.ring.contents handle.position (Patience.interruptible.acquire attempts)
      (.seek target) (.number answer.1) answer.2.position := by
  intro answer
  cases target with
  | start offset =>
    refine .sought nofun ?_ hFits
    simp [SeekTarget.origin, SeekTarget.delta]
  | current delta => exact flatStep_moveFrom (.current delta) nofun
  | finish delta =>
    cases hLock : Patience.interruptible.acquire attempts with
    | acquired =>
      have hAnswer : answer = handle.moveFrom device.ring.contents.length delta := by
        show handle.seek device (.finish delta) attempts = _
        rw [Handle.seek, hLock, ← hTotal]
        rfl
      rw [hAnswer]
      exact flatStep_moveFrom (.finish delta) fun _ => rfl
    | interrupted =>
      have hAnswer : answer = (.error .interrupted, handle) := by
        show handle.seek device (.finish delta) attempts = _
        rw [Handle.seek, hLock]
        rfl
      rw [hAnswer]
      exact .seekInterrupted rfl rfl
    | waiting =>
      have hAnswer : answer = (.waiting, handle) := by
        show handle.seek device (.finish delta) attempts = _
        rw [Handle.seek, hLock]
        rfl
      rw [hAnswer]
      exact .seekWaiting rfl rfl

theorem flatStep_readExact {lock : Acquisition}
    (hTotal : device.ring.totalBytes = device.ring.contents.length) {most : Nat}
    (hAnswers : ∀ count ≤ most, ∀ offset, device.ring.Answers count offset)
    (hCount : count ≤ most) :
    let answer := handle.readExact device.ring count
    FlatStep device.ring.contents handle.position lock (.readExact count) (.exact answer.1)
      answer.2.position := by
  intro answer
  have hAnswer : answer = _ := readExact_eq hTotal hAnswers handle hCount
  have hLength : ((device.ring.contents.drop handle.position).take count).length =
      min count (device.ring.contents.length - handle.position) := by
    rw [List.length_take, List.length_drop]
  rw [hAnswer, hLength]
  by_cases hLeft : count ≤ device.ring.contents.length - handle.position
  · rw [Nat.min_eq_left hLeft, if_pos rfl]
    exact .readExact hLeft
  · have hShort : device.ring.contents.length - handle.position < count := Nat.lt_of_not_le hLeft
    have hEnd : handle.position + (device.ring.contents.length - handle.position) =
        max handle.position device.ring.contents.length := by omega
    rw [Nat.min_eq_right (Nat.le_of_lt hShort), if_neg (Nat.ne_of_lt hShort), hEnd]
    exact .cameShort hShort

theorem flatStep_readToEnd {lock : Acquisition}
    (hTotal : device.ring.totalBytes = device.ring.contents.length)
    (hEntries : ∀ entry ∈ device.ring.entries, entry.length ≤ Ring.addressableBytes) :
    let answer := handle.readToEnd? device.ring
    FlatStep device.ring.contents handle.position lock .readToEnd (.bytes (.ofOption answer.1))
      answer.2.position := by
  intro answer
  have hAnswer : answer = _ := readToEnd?_eq hTotal hEntries handle (by decide) (by decide)
  rw [hAnswer]
  dsimp only
  rw [position_add_length_drop]
  exact .readToEnd

end Handle

namespace Desk

variable {desk : Desk} {name : String}

theorem device_perform_of_quiet {act : DeskAct} (hQuiet : act.writes = false) (desk : Desk)
    (name : String) (attempts : List Attempt) :
    (desk.perform name attempts act).2.device = desk.device := by
  cases act with
  | write data room => cases hQuiet
  | writeAll data => cases hQuiet
  | _ => rfl

/-- A handle moves as a cursor over the contents does. -/
theorem flatStep_perform (name : String)
    (hTotal : desk.device.ring.totalBytes = desk.device.ring.contents.length)
    (hEntries : ∀ entry ∈ desk.device.ring.entries, entry.length ≤ Ring.addressableBytes)
    {act : DeskAct} (hQuiet : act.writes = false) (hFits : act.Fits) (attempts : List Attempt) :
    let outcome := desk.perform name attempts act
    FlatStep desk.device.ring.contents (desk.handle name).position
      (Patience.interruptible.acquire attempts) act outcome.1 (outcome.2.handle name).position := by
  intro outcome
  have hAnswers : ∀ count ≤ Ring.addressableBytes, ∀ offset,
      desk.device.ring.Answers count offset :=
    fun count hCount => Ring.answers_of_addressable hEntries hCount
  cases act with
  | write data room => cases hQuiet
  | writeAll data => cases hQuiet
  | reopen =>
    have hHandle : outcome.2.handle name = {} := handle_setHandle_self desk name {}
    rw [hHandle]
    exact .reopened
  | read count =>
    have hHandle : outcome.2.handle name = _ := handle_setHandle_self desk name _
    rw [hHandle]
    exact Handle.flatStep_read hTotal (hAnswers count hFits _)
  | seek target =>
    have hHandle : outcome.2.handle name = _ := handle_setHandle_self desk name _
    rw [hHandle]
    exact Handle.flatStep_seek hTotal hFits
  | readExact count =>
    have hHandle : outcome.2.handle name = _ := handle_setHandle_self desk name _
    rw [hHandle]
    exact Handle.flatStep_readExact hTotal hAnswers hFits
  | readToEnd =>
    have hHandle : outcome.2.handle name = _ := handle_setHandle_self desk name _
    rw [hHandle]
    exact Handle.flatStep_readToEnd hTotal hEntries

/-- Without a write the device stays as it is, so the calls through one handle are those of one
cursor. -/
theorem flatRun_run (hTotal : desk.device.ring.totalBytes = desk.device.ring.contents.length)
    (hEntries : ∀ entry ∈ desk.device.ring.entries, entry.length ≤ Ring.addressableBytes)
    {calls : List DeskCall} (hQuiet : ∀ call ∈ calls, call.act.writes = false)
    (hFits : ∀ call ∈ calls, call.name = name → call.act.Fits) :
    let outcome := desk.run calls
    outcome.2.device = desk.device ∧
      FlatRun desk.device.ring.contents name (desk.handle name).position outcome.1
        (outcome.2.handle name).position := by
  induction calls generalizing desk with
  | nil => exact ⟨rfl, .nil⟩
  | cons call later ih =>
    obtain ⟨hQuietHere, hQuietLater⟩ := List.forall_mem_cons.mp hQuiet
    obtain ⟨hFitsHere, hFitsLater⟩ := List.forall_mem_cons.mp hFits
    have hDevice := device_perform_of_quiet hQuietHere desk call.name call.attempts
    have hTotalLater := hTotal
    have hEntriesLater := hEntries
    rw [← hDevice] at hTotalLater hEntriesLater
    have hLater := ih hTotalLater hEntriesLater hQuietLater hFitsLater
    rw [hDevice] at hLater
    rw [run_cons]
    refine ⟨hLater.1, ?_⟩
    by_cases hName : call.name = name
    · subst hName
      have hStep := flatStep_perform call.name hTotal hEntries hQuietHere (hFitsHere rfl)
        call.attempts
      exact .own rfl hStep hLater.2
    · refine .other hName ?_
      rw [← handle_perform_of_ne desk (Ne.symm hName) call.attempts call.act]
      exact hLater.2

/-- **Between two writes a handle is a cursor over flat bytes.**  Take a desk that any calls have
led to, and any calls after that none of which writes.  Then the device does not change, and the
calls through a handle are those of a cursor over the contents: `FlatStep` says of each what it
answers and where it leaves the handle.  No position ever leaves the words, nor does the end of a
range asked for.  Filling a buffer and reading to the end come out the same as loops of reads, made
again when interrupted, of buffers of any sizes.  (Entries lie in memory, so none of them is longer
than can be addressed, and their total is a word.) -/
theorem flatRun_of_reached (hReached : desk.Reached)
    (hEntries : ∀ entry ∈ desk.device.ring.entries, entry.length ≤ Ring.addressableBytes)
    (hLength : desk.device.ring.contents.length < Word.bound)
    (hPosition : (desk.handle name).position < Word.bound)
    {calls : List DeskCall} (hQuiet : ∀ call ∈ calls, call.act.writes = false)
    (hFits : ∀ call ∈ calls, call.name = name → call.act.Fits) :
    let s := desk.device.ring.contents
    let last := (desk.run calls).2
    last.device = desk.device ∧
    FlatRun s name (desk.handle name).position (desk.run calls).1 (last.handle name).position ∧
    (last.handle name).position < Word.bound ∧
    (∀ count ≤ Ring.addressableBytes, ∀ located,
      last.device.ring.find (last.handle name).position = some located →
        located.offset + count < Word.bound) ∧
    (∀ count ≤ Ring.addressableBytes, ∀ bytes next,
      Handle.Fills last.device (last.handle name) count bytes next →
        bytes = (s.drop (last.handle name).position).take count ∧
        (last.handle name).readExact last.device.ring count =
          (some (if bytes.length = count then .ok bytes else .error .unexpectedEnd), next)) ∧
    ∀ bytes next, Handle.Drains last.device (last.handle name) bytes next →
      bytes = s.drop (last.handle name).position ∧
      (last.handle name).readToEnd? last.device.ring = (some bytes, next) := by
  intro s last
  obtain ⟨written, hHolds⟩ := hReached.exists_holds
  have hTotal := hHolds.ring.totalBytes_eq
  obtain ⟨hDevice, hRun⟩ := flatRun_run hTotal hEntries hQuiet hFits
  have hSame : last.device = desk.device := hDevice
  have hAnswers : ∀ count ≤ Ring.addressableBytes, ∀ offset,
      desk.device.ring.Answers count offset :=
    fun count hCount => Ring.answers_of_addressable hEntries hCount
  refine ⟨hSame, hRun, hRun.lt_bound hLength hPosition, ?_, ?_, ?_⟩
  · intro count hCount
    rw [hSame]
    exact hAnswers count hCount _
  · intro count hCount bytes next hFills
    rw [hSame] at hFills ⊢
    obtain ⟨hBytes, hNext⟩ := hFills.eq hTotal
    have hExact := Handle.readExact_eq hTotal hAnswers (last.handle name) hCount
    refine ⟨hBytes, ?_⟩
    rw [hExact, ← hBytes, ← hNext]
  · intro bytes next hDrains
    rw [hSame] at hDrains ⊢
    obtain ⟨hBytes, hNext⟩ := hDrains.eq hTotal
    have hPos : 0 < 65536 := by decide
    have hEnd := Handle.readToEnd?_eq hTotal hEntries (last.handle name) hPos (by decide)
    refine ⟨hBytes, ?_⟩
    rw [hEnd, ← hBytes, ← hNext]

/-- A buffer is filled across the end of an entry, seeks miss at both ends of the words, and the
last byte is read in spite of an interruption. -/
theorem flatRun_of_reached_of_last_word :
    let free : List Attempt := [⟨true, false⟩]
    let desk : Desk := (run { device := { ring := { capacity := 2 } } }
      [⟨"w", free, .write [120, 10, 97, 98, 10, 99, 100, 10, 113] true⟩]).2
    let calls : List DeskCall :=
      [⟨"r", free, .readExact 4⟩, ⟨"x", free, .read 9⟩, ⟨"r", free, .read 9⟩,
        ⟨"r", free, .seek (.finish (-7))⟩, ⟨"r", free, .readExact 1⟩,
        ⟨"r", free, .seek (.start 18446744073709551615)⟩, ⟨"r", free, .readToEnd⟩,
        ⟨"r", free, .seek (.current 1)⟩, ⟨"r", free, .seek (.finish (-1))⟩]
    let device := (desk.run calls).2.device
    let handle := (desk.run calls).2.handle "r"
    desk.Reached ∧ desk.device.ring.contents = [97, 98, 10, 99, 100, 10] ∧
      (∀ entry ∈ desk.device.ring.entries, entry.length ≤ Ring.addressableBytes) ∧
      desk.device.ring.contents.length < Word.bound ∧ (desk.handle "r").position < Word.bound ∧
      (∀ call ∈ calls, call.act.writes = false) ∧
      (∀ call ∈ calls, call.name = "r" → call.act.Fits) ∧
      FlatRun [97, 98, 10, 99, 100, 10] "r" 0 (desk.run calls).1 5 ∧
      Handle.Drains device handle [10] { position := 6 } ∧
      handle.readToEnd? device.ring = (some [10], { position := 6 }) := by
  intro free desk calls device handle
  have hReached : desk.Reached := .run (.create (by decide) []) _
  have hContents : desk.device.ring.contents = [97, 98, 10, 99, 100, 10] := by decide +kernel
  have hEntries : ∀ entry ∈ desk.device.ring.entries, entry.length ≤ Ring.addressableBytes := by
    decide +kernel
  have hLength : desk.device.ring.contents.length < Word.bound := by decide +kernel
  have hStart : (desk.handle "r").position = 0 := by decide +kernel
  have hPosition : (desk.handle "r").position < Word.bound := by
    rw [hStart]
    decide
  have hQuiet : ∀ call ∈ calls, call.act.writes = false := by decide
  have hFits : ∀ call ∈ calls, call.name = "r" → call.act.Fits := by
    simp [calls, DeskAct.Fits, Ring.addressableBytes, Word.signedBound, Word.bound]
  have hEnd : handle.position = 5 := by decide +kernel
  obtain ⟨-, hRun, -, -, -, hDrained⟩ := flatRun_of_reached hReached hEntries hLength hPosition
    hQuiet hFits
  rw [hContents, hStart, hEnd] at hRun
  have hMissed : handle.read device 1 [⟨false, true⟩] =
      (.error .interrupted, { position := 5 }) := by decide +kernel
  have hTaken : ({ position := 5 } : Handle).read device 7 free =
      (.ok [10], { position := 6 }) := by decide +kernel
  have hNothing : ({ position := 6 } : Handle).read device 1 free =
      (.ok [], { position := 6 }) := by decide +kernel
  have hDrains : Handle.Drains device handle [10] { position := 6 } :=
    .again hMissed rfl (.more hTaken (by decide) (.ended (by decide) hNothing))
  obtain ⟨-, hLast⟩ := hDrained [10] { position := 6 } hDrains
  exact ⟨hReached, hContents, hEntries, hLength, hPosition, hQuiet, hFits, hRun, hDrains, hLast⟩

end Desk

end PacketLog
