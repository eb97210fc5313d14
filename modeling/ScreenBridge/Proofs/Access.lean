/-
# Every store answers like one array of bytes

What is asked of a store are reads into a buffer of the caller and writes of
single bytes, at any offsets and of any lengths. The answer of one array of bytes
is told by what was asked earlier alone (`Access.answer`): an access succeeds if
it ends inside the array, and a read finds at each place the byte that was written
there last. The store in memory and an attached segment both answer in this way
(`Access.Holds.performAll`).

The store in memory can also be told to fail. An access that fails then leaves
everything as it was, and the log names the writes that did not fail
(`MemoryAction.log_bytes_trace`).

Key definitions: `Access`, `Access.perform`, `Access.byteAfter`, `Access.answer`,
`Access.Holds`, `MemoryAction`, `MemoryAction.trace`.
Key theorems: `Access.Holds.perform`, `Access.Holds.performAll`,
`Access.perform_of_failed`, `MemoryAction.log_bytes_trace`,
`Access.stores_answer_like_one_array`.
-/
import ScreenBridge.Proofs.Footprint
import ScreenBridge.Proofs.PlainStore

namespace ScreenBridge

/-- What is asked of a store. -/
inductive Access
  /-- Bytes are read into a buffer of a length. -/
  | read (offset length : UInt64) (buffer : Vector UInt8 length.toNat)
  | write (offset : UInt64) (value : UInt8)

namespace Access

/-- What the caller is left with. -/
structure Answer where
  result : Except StoreError Unit
  /-- The caller's buffer afterwards. A write has none. -/
  buffer : Array UInt8

/-- The caller's buffer beforehand. -/
def buffer : Access → Array UInt8
  | read _ _ buffer => buffer.toArray
  | write .. => #[]

section Store

variable {σ : Type} [Store σ]

/-- Asks a store. Only a read that succeeds fills the buffer. -/
def perform (s : σ) : Access → Answer × σ
  | read offset length buffer =>
    match Store.read s offset length with
    | .ok bytes => (⟨.ok (), bytes⟩, s)
    | .error e => (⟨.error e, buffer.toArray⟩, s)
  | write offset value =>
    let (result, s) := Store.write s offset value
    (⟨result, #[]⟩, s)

/-- Asks a store one thing after another. -/
def performAll (s : σ) : List Access → List Answer × σ
  | [] => ([], s)
  | a :: accesses =>
    let (answer, s) := perform s a
    let (answers, s) := performAll s accesses
    (answer :: answers, s)

end Store

/-! ### One array of bytes -/

/-- The byte that the access puts at a place, if any. -/
def written? (i : ℕ) : Access → Option UInt8
  | read .. => none
  | write offset value => if offset.toNat = i then some value else none

/-- The byte at a place after some accesses: the one that was put there last, or
else the one that was there at first. -/
def byteAfter (initial : Array UInt8) (earlier : List Access) (i : ℕ) : UInt8 :=
  (earlier.reverse.findSome? (written? i)).getD (initial.getD i 0)

/-- All bytes after some accesses. -/
def contents (initial : Array UInt8) (earlier : List Access) : Array UInt8 :=
  Array.ofFn fun i : Fin initial.size => byteAfter initial earlier i

/-- The answer of one array of bytes after some accesses. Where an access ends is a
natural number. -/
def answer (initial : Array UInt8) (earlier : List Access) : Access → Answer
  | read offset length buffer =>
    if offset.toNat + length.toNat ≤ initial.size then
      ⟨.ok (), Array.ofFn fun k : Fin length.toNat => byteAfter initial earlier (offset.toNat + k)⟩
    else ⟨.error (.read offset length (Store.pastEnd offset length initial.size)), buffer.toArray⟩
  | write offset _ =>
    if offset.toNat + 1 ≤ initial.size then ⟨.ok (), #[]⟩
    else ⟨.error (.write offset (Store.pastEnd offset 1 initial.size)), #[]⟩

/-- The answers of one array of bytes, one after another. -/
def answers (initial : Array UInt8) (earlier : List Access) : List Access → List Answer
  | [] => []
  | a :: accesses => answer initial earlier a :: answers initial (earlier ++ [a]) accesses

variable {initial : Array UInt8} {earlier : List Access}

@[simp] theorem size_contents (initial : Array UInt8) (earlier : List Access) :
    (contents initial earlier).size = initial.size := Array.size_ofFn

theorem getElem?_contents (earlier : List Access) {i : ℕ} (hi : i < initial.size) :
    (contents initial earlier)[i]? = some (byteAfter initial earlier i) := by
  simp [contents, hi]

theorem contents_nil (initial : Array UInt8) : contents initial [] = initial := by
  refine Array.ext_getElem? fun i => ?_
  by_cases hi : i < initial.size
  · simp [contents, byteAfter, hi]
  · simp [contents, hi]

theorem byteAfter_append (initial : Array UInt8) (earlier : List Access) (a : Access) (i : ℕ) :
    byteAfter initial (earlier ++ [a]) i = (a.written? i).getD (byteAfter initial earlier i) := by
  unfold byteAfter
  cases h : a.written? i <;> simp [h]

theorem contents_read (offset length : UInt64) (buffer : Vector UInt8 length.toNat) :
    contents initial (earlier ++ [read offset length buffer]) = contents initial earlier := by
  unfold contents
  simp only [byteAfter_append, written?, Option.getD_none]

theorem contents_write (offset : UInt64) (value : UInt8) :
    contents initial (earlier ++ [write offset value]) =
      (contents initial earlier).setIfInBounds offset.toNat value := by
  refine Array.ext_getElem? fun i => ?_
  by_cases hi : i < initial.size
  · by_cases heq : offset.toNat = i
    · subst heq
      rw [Array.getElem?_setIfInBounds_self_of_lt (by simpa using hi), getElem?_contents _ hi,
        byteAfter_append]
      simp [written?]
    · rw [Array.getElem?_setIfInBounds_ne heq, getElem?_contents _ hi, getElem?_contents _ hi,
        byteAfter_append]
      simp [written?, heq]
  · rw [Array.getElem?_eq_none (by simp; omega), Array.getElem?_eq_none (by simp; omega)]

theorem extract_contents {offset length : ℕ} (hle : offset + length ≤ initial.size) :
    (contents initial earlier).extract offset (offset + length) =
      Array.ofFn fun k : Fin length => byteAfter initial earlier (offset + k) := by
  refine Array.ext_getElem? fun k => ?_
  by_cases hk : k < length
  · rw [Array.getElem?_extract, if_pos (by simp; omega), getElem?_contents _ (by omega)]
    simp [hk]
  · rw [Array.getElem?_eq_none (by simp; omega), Array.getElem?_eq_none (by simp; omega)]

/-! ### Stores without faults -/

open ByteStore PlainStore

variable {σ : Type} [Store σ] [PlainStore σ] {s : σ}

/-- The store is one without faults and holds what some accesses left of the bytes
that were there at first. -/
structure Holds (initial : Array UInt8) (earlier : List Access) (s : σ) : Prop where
  plain : Plain s
  bytes_eq : bytes s = contents initial earlier

/-- **One access.** The store answers as the array does and holds what the array
holds. -/
theorem Holds.perform (h : Holds initial earlier s) (a : Access) :
    (a.perform s).1 = answer initial earlier a ∧ Holds initial (earlier ++ [a]) (a.perform s).2 := by
  have hsize : (bytes s).size = initial.size := by rw [h.bytes_eq, size_contents]
  cases a with
  | read offset length buffer =>
    have hread := h.plain.read_eq offset length
    have hstays : Holds initial (earlier ++ [.read offset length buffer]) s :=
      ⟨h.plain, h.bytes_eq.trans (contents_read ..).symm⟩
    by_cases hle : offset.toNat + length.toNat ≤ initial.size
    · rw [hsize, if_pos hle, h.bytes_eq, extract_contents hle] at hread
      simp [Access.perform, hread, answer, hle, hstays]
    · rw [hsize, if_neg hle] at hread
      simp [Access.perform, hread, answer, hle, hstays]
  | write offset value =>
    by_cases hlt : offset.toNat < initial.size
    · obtain ⟨hok, hplain, hb⟩ := h.plain.write_inside value (hsize ▸ hlt)
      have hle : offset.toNat + 1 ≤ initial.size := hlt
      rw [h.bytes_eq, ← contents_write] at hb
      exact ⟨by simp [Access.perform, hok, answer, hle], hplain, hb⟩
    · have hrefused := h.plain.write_outside value (hsize ▸ Nat.le_of_not_lt hlt)
      have hle : ¬ offset.toNat + 1 ≤ initial.size := hlt
      have hkept : contents initial (earlier ++ [.write offset value]) = contents initial earlier := by
        rw [contents_write, Array.setIfInBounds, dif_neg (by rwa [size_contents])]
      have hstays : Holds initial (earlier ++ [.write offset value]) s :=
        ⟨h.plain, h.bytes_eq.trans hkept.symm⟩
      simp [Access.perform, hrefused, answer, hle, hsize, hstays]

/-- **Any accesses.** -/
theorem Holds.performAll : ∀ (accesses : List Access) {earlier : List Access} {s : σ},
    Holds initial earlier s →
      (performAll s accesses).1 = answers initial earlier accesses ∧
        Holds initial (earlier ++ accesses) (performAll s accesses).2
  | [], _, _, h => ⟨rfl, by simpa [Access.performAll] using h⟩
  | a :: accesses, earlier, s, h => by
    obtain ⟨hanswer, hholds⟩ := h.perform a
    obtain ⟨hanswers, hrest⟩ := hholds.performAll accesses
    rw [List.append_assoc, List.singleton_append] at hrest
    exact ⟨by simp [Access.performAll, answers, hanswer, hanswers], hrest⟩

theorem holds_ofBytes (hsize : initial.size < UInt64.size) :
    Holds initial [] (MemoryStore.ofBytes initial) where
  plain := ⟨rfl, rfl, hsize⟩
  bytes_eq := (contents_nil initial).symm

theorem holds_attached (hsize : initial.size < UInt64.size) {s : AttachedStore}
    (hbytes : s.bytes = initial) (hlength : s.handle.length.toNat = initial.size) :
    Holds initial [] s where
  plain := ⟨trivial, hlength.trans (congrArg Array.size hbytes.symm),
    (congrArg Array.size hbytes).trans_lt hsize⟩
  bytes_eq := hbytes.trans (contents_nil initial).symm

/-! ### A store in memory that is told to fail -/

/-- An access that fails changes neither the store nor the caller's buffer. -/
theorem perform_of_failed (s : MemoryStore) (a : Access) (h : (a.perform s).1.result ≠ .ok ()) :
    (a.perform s).2 = s ∧ (a.perform s).1.buffer = a.buffer := by
  cases a with
  | read offset length buffer =>
    cases hread : Store.read s offset length with
    | ok bytes => simp [Access.perform, hread] at h
    | error e => simp [Access.perform, hread, Access.buffer]
  | write offset value =>
    rcases s.write_cases offset value with ⟨-, hok⟩ | ⟨cause, herror⟩
    · have hwrite : Store.write s offset value = _ := hok
      simp [Access.perform, hwrite] at h
    · have hwrite : Store.write s offset value = _ := herror
      simp [Access.perform, hwrite, Access.buffer]

/-- The byte and its place, if the access wrote one. -/
def put? : Access × Answer → Option (UInt64 × UInt8)
  | (write offset value, ⟨.ok (), _⟩) => some (offset, value)
  | _ => none

/-- What the log and the bytes are behind an access. -/
theorem log_bytes_perform (s : MemoryStore) (a : Access) :
    (a.perform s).2.log.toList = s.log.toList ++ ((put? (a, (a.perform s).1)).toList.map (·.1)) ∧
      (a.perform s).2.bytes = putAll s.bytes (put? (a, (a.perform s).1)).toList := by
  cases a with
  | read offset length buffer =>
    cases hread : Store.read s offset length <;> simp [Access.perform, hread, put?, putAll]
  | write offset value =>
    rcases s.write_cases offset value with ⟨-, hok⟩ | ⟨cause, herror⟩
    · have hwrite : Store.write s offset value = _ := hok
      simp [Access.perform, hwrite, put?, putAll]
    · have hwrite : Store.write s offset value = _ := herror
      simp [Access.perform, hwrite, put?, putAll]

end Access

/-- What is done to a store in memory. -/
inductive MemoryAction
  | access (a : Access)
  | failReads (fail : Bool)
  | failWrites (fail : Bool)

namespace MemoryAction

open Access ByteStore

/-- The accesses among some actions with their answers, and the store afterwards. -/
def trace (s : MemoryStore) : List MemoryAction → List (Access × Answer) × MemoryStore
  | [] => ([], s)
  | access a :: actions =>
    let (answer, s) := a.perform s
    let (answered, s) := trace s actions
    ((a, answer) :: answered, s)
  | failReads fail :: actions => trace { s with failReads := fail } actions
  | failWrites fail :: actions => trace { s with failWrites := fail } actions

/-- The bytes that were written, with their places and in their order. -/
def puts (answered : List (Access × Answer)) : List (UInt64 × UInt8) := answered.filterMap put?

/-- The log names the writes that succeeded, and nothing else is in the bytes. -/
theorem log_bytes_trace : ∀ (actions : List MemoryAction) (s : MemoryStore),
    (trace s actions).2.log.toList = s.log.toList ++ (puts (trace s actions).1).map (·.1) ∧
      (trace s actions).2.bytes = putAll s.bytes (puts (trace s actions).1)
  | [], s => by simp [trace, puts, putAll]
  | access a :: actions, s => by
    obtain ⟨hlog, hbytes⟩ := log_bytes_perform s a
    obtain ⟨hlogs, hrest⟩ := log_bytes_trace actions (a.perform s).2
    have hputs : puts (trace s (access a :: actions)).1 =
        (put? (a, (a.perform s).1)).toList ++ puts (trace (a.perform s).2 actions).1 := by
      simp only [trace, puts, List.filterMap_cons]
      cases put? (a, (a.perform s).1) <;> rfl
    rw [hputs, List.map_append, ← List.append_assoc, ← hlog, putAll_append, ← hbytes]
    exact ⟨hlogs, hrest⟩
  | failReads fail :: actions, s => log_bytes_trace actions { s with failReads := fail }
  | failWrites fail :: actions, s => log_bytes_trace actions { s with failWrites := fail }

end MemoryAction

namespace Access

open ByteStore MemoryAction

/-- **Every store answers like one array of bytes.** Whatever is asked of a store
in memory that is not told to fail, and of an attached segment with the same
bytes, the answers are those of one array (`Access.answer`), and afterwards each
byte is the one written last. If the store in memory is told to fail and not to
fail at any moments, then an access that fails still changes nothing, the log is
the list of the offsets of the writes that succeeded, and only these writes are in
the bytes. -/
theorem stores_answer_like_one_array {initial : Array UInt8} (hsize : initial.size < UInt64.size) :
    (∀ accesses : List Access,
      let memory := performAll (MemoryStore.ofBytes initial) accesses
      memory.1 = answers initial [] accesses ∧ memory.2.bytes = contents initial accesses) ∧
    (∀ (segment : AttachedStore) (accesses : List Access), segment.bytes = initial →
      segment.handle.length.toNat = initial.size →
      let memory := performAll (MemoryStore.ofBytes initial) accesses
      let attached := performAll segment accesses
      attached.1 = memory.1 ∧ attached.2.bytes = memory.2.bytes ∧
      Store.size attached.2 = Store.size memory.2) ∧
    (∀ actions : List MemoryAction,
      let (answered, store) := trace (MemoryStore.ofBytes initial) actions
      (∀ a : Access, (a.perform store).1.result ≠ .ok () →
        (a.perform store).2 = store ∧ (a.perform store).1.buffer = a.buffer) ∧
      store.log.toList = (puts answered).map (·.1) ∧
      store.bytes = putAll initial (puts answered)) := by
  refine ⟨fun accesses => ?_, fun segment accesses hbytes hlength => ?_, fun actions => ?_⟩
  · obtain ⟨hanswers, hholds⟩ := (holds_ofBytes hsize).performAll accesses
    exact ⟨hanswers, hholds.bytes_eq⟩
  · obtain ⟨hanswers, hholds⟩ := (holds_ofBytes hsize).performAll accesses
    obtain ⟨hanswers', hholds'⟩ := (holds_attached hsize hbytes hlength).performAll accesses
    have hsame : (performAll segment accesses).2.bytes =
        (performAll (MemoryStore.ofBytes initial) accesses).2.bytes :=
      hholds'.bytes_eq.trans hholds.bytes_eq.symm
    refine ⟨hanswers'.trans hanswers.symm, hsame, ?_⟩
    exact (size_eq hholds'.plain.writable).trans (congrArg Array.size hsame)
  · obtain ⟨hlog, hbytes⟩ := log_bytes_trace actions (MemoryStore.ofBytes initial)
    exact ⟨perform_of_failed _, hlog, hbytes⟩

/-- Three bytes. Nothing can be read at their end and still succeeds, and an offset
and a length whose sum is no word are refused. -/
theorem three_bytes_answer :
    let segment : AttachedStore := ⟨⟨#[⟨5, #[10, 20, 30], false⟩]⟩, ⟨0, 5, 3⟩⟩
    let accesses : List Access := [.write 2 9, .read 1 2 ⟨#[0, 0], rfl⟩, .read 3 0 ⟨#[], rfl⟩,
      .write 3 1, .read 0xFFFFFFFFFFFFFFFF 2 ⟨#[7, 8], rfl⟩]
    ((performAll segment accesses).1.map fun a => (a.result.toBool, a.buffer)) =
        [(true, #[]), (true, #[20, 9]), (true, #[]), (false, #[]), (false, #[7, 8])] ∧
      (performAll segment accesses).2.bytes = #[10, 20, 9] ∧
      (trace (.ofBytes #[10, 20, 30]) [.access (.write 1 4), .failWrites true, .access (.write 0 5),
        .failWrites false, .access (.write 2 6)]).2.log.toList = [1, 2] := by
  intro segment accesses
  have hsize : (#[10, 20, 30] : Array UInt8).size < UInt64.size := by decide
  obtain ⟨hmemory, hattached, hfailing⟩ := stores_answer_like_one_array hsize
  obtain ⟨hanswers, hcontents⟩ := hmemory accesses
  obtain ⟨hanswers', hcontents', -⟩ := hattached segment accesses rfl (by decide)
  refine ⟨?_, ?_, ?_⟩
  · rw [hanswers', hanswers]
    decide
  · rw [hcontents', hcontents]
    decide
  · exact (hfailing _).2.1

end Access
end ScreenBridge
