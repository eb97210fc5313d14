/-
# Stores whose answers tell what became of a write

A store may refuse a write for whatever reason. It is honest if it took the byte
when it says so, and changed nothing when it says that it did not
(`HonestStore`). The store in memory is honest, whatever its switches say, and
so are an attached segment whose handle knows its length and a store that
refuses some of its next writes (`FlakyStore`).

Of a list of bytes an honest store takes as many of the first as it can, and it
says whether these were all (`Outcome`). So what an event or letting all keys go
leaves behind can be told, also if it failed half way (`Bridge.apply_outcome`,
`Bridge.releaseAll_outcome`), and whatever fails, a batch changes no bytes but
the bridge's own (`Bridge.within_applyAll`).

Key definitions: `HonestStore`, `FlakyStore`, `Outcome`, `Bridge.Within`.
Key theorems: `Outcome.exists_prefix`, `HonestStore.outcome_writeAll`,
`Bridge.apply_outcome`, `Bridge.releaseAll_outcome`, `Bridge.shows_of_publishes`,
`Bridge.within_applyAll`.
-/
import ScreenBridge.Proofs.Faults

namespace ScreenBridge

open ByteStore

/-- A store of bytes that says what became of each write. -/
class HonestStore (σ : Type) [Store σ] extends ByteStore σ where
  /-- The store knows its size. -/
  Intact : σ → Prop
  intact_of_writable {s : σ} : Writable s → Intact s
  size_of_intact {s : σ} : Intact s → Store.size s = (bytes s).size
  intact_write {s : σ} (offset : UInt64) (value : UInt8) :
    Intact s → Intact (Store.write s offset value).2
  bytes_write {s : σ} (offset : UInt64) (value : UInt8) : Intact s →
    bytes (Store.write s offset value).2 =
      match (Store.write s offset value).1 with
      | .ok () => (bytes s).setIfInBounds offset.toNat value
      | .error _ => bytes s

/-! ### Honest stores -/

instance : HonestStore MemoryStore where
  Intact _ := True
  intact_of_writable _ := trivial
  size_of_intact _ := rfl
  intact_write _ _ _ := trivial
  bytes_write {s} offset value _ := by
    change (s.write offset value).2.bytes = match (s.write offset value).1 with
      | .ok () => s.bytes.setIfInBounds offset.toNat value
      | .error _ => s.bytes
    rcases MemoryStore.write_cases s offset value with ⟨-, h⟩ | ⟨cause, h⟩ <;> rw [h]

theorem SegmentTable.bytes_write (t : SegmentTable) (h : SegmentHandle) (offset : UInt64)
    (value : UInt8) :
    (t.write h offset value).2.bytes h.number =
      match (t.write h offset value).1 with
      | .ok () => (t.bytes h.number).setIfInBounds offset.toNat value
      | .error _ => t.bytes h.number := by
  unfold write
  split
  · simp only [bytes, Array.getElem?_modify, if_true, Option.map_map]
    cases t.segments[h.number]? <;> simp
  · rfl

instance : HonestStore AttachedStore where
  Intact s := s.handle.length.toNat = s.bytes.size
  intact_of_writable h := h
  size_of_intact h := h
  intact_write {s} offset value hi := by
    change s.handle.length.toNat =
      ((s.table.write s.handle offset value).2.bytes s.handle.number).size
    rw [SegmentTable.bytes_write]
    split
    · rw [Array.size_setIfInBounds]
      exact hi
    · exact hi
  bytes_write {s} offset value _ := s.table.bytes_write s.handle offset value

/-- A store in memory and, for each of its next writes, whether it is refused. -/
structure FlakyStore where
  memory : MemoryStore
  refusals : List Bool
  deriving DecidableEq, Repr

namespace FlakyStore

/-- Writes a byte, unless that is to be refused. -/
def write (s : FlakyStore) (offset : UInt64) (value : UInt8) :
    Except StoreError Unit × FlakyStore :=
  match s.refusals with
  | true :: rest =>
    (.error (.write offset (.custom .other "injected write failure")), { s with refusals := rest })
  | rest =>
    let (result, memory) := s.memory.write offset value
    (result, ⟨memory, rest.tail⟩)

instance : Store FlakyStore where
  size s := s.memory.bytes.size
  read s := s.memory.read
  write := write

theorem write_cases (s : FlakyStore) (offset : UInt64) (value : UInt8) :
    (true ∈ s.refusals ∧ ∃ cause, s.write offset value =
      (.error (.write offset cause), { s with refusals := s.refusals.tail })) ∨
    s.write offset value =
      ((s.memory.write offset value).1, ⟨(s.memory.write offset value).2, s.refusals.tail⟩) := by
  unfold write
  split
  · rename_i rest h
    rw [h]
    exact Or.inl ⟨List.mem_cons_self, _, rfl⟩
  · exact Or.inr rfl

instance : ByteStore FlakyStore where
  bytes s := s.memory.bytes
  Writable s := s.memory.failWrites = false ∧ true ∉ s.refusals
  poke s offset value := { s with memory := ByteStore.poke s.memory offset value }
  size_eq _ := rfl
  write_eq {s offset} value hw h ho := by
    obtain ⟨hok, hkept, hbytes⟩ := ByteStore.write_eq (s := s.memory) value hw.1 h ho
    rcases s.write_cases offset value with ⟨hmem, -⟩ | hwrite
    · exact absurd hmem hw.2
    · rw [show Store.write s offset value = _ from hwrite]
      exact ⟨hok, ⟨hkept, fun hmem => hw.2 (List.mem_of_mem_tail hmem)⟩, hbytes⟩
  poke_eq {s offset} value hw h ho := by
    obtain ⟨hkept, hbytes⟩ := ByteStore.poke_eq (s := s.memory) value hw.1 h ho
    exact ⟨⟨hkept, hw.2⟩, hbytes⟩

instance : HonestStore FlakyStore where
  Intact _ := True
  intact_of_writable _ := trivial
  size_of_intact _ := rfl
  intact_write _ _ _ := trivial
  bytes_write {s} offset value _ := by
    rcases s.write_cases offset value with ⟨-, cause, h⟩ | h
    · rw [show Store.write s offset value = _ from h]
      rfl
    · rw [show Store.write s offset value = _ from h]
      exact HonestStore.bytes_write (s := s.memory) offset value trivial

end FlakyStore

/-! ### Lists of bytes -/

/-- Bytes were put as a list says: all of them if the answer is so, and else some of
the first. -/
structure Outcome {ε : Type} (writes : List (UInt64 × UInt8)) (answer : Except ε Unit)
    (before after : Array UInt8) : Prop where
  of_ok : answer = .ok () → after = putAll before writes
  of_error : ∀ e, answer = .error e → ∃ done, done <+: writes ∧ after = putAll before done

namespace Outcome

variable {ε : Type} {writes later : List (UInt64 × UInt8)} {answer : Except ε Unit}
  {before middle after : Array UInt8}

/-- Whatever the answer, some of the first were put. -/
theorem exists_prefix (h : Outcome writes answer before after) :
    ∃ done, done <+: writes ∧ after = putAll before done := by
  rcases answer with e | _
  · exact h.of_error e rfl
  · exact ⟨writes, List.prefix_rfl, h.of_ok rfl⟩

theorem size_eq (h : Outcome writes answer before after) : after.size = before.size := by
  obtain ⟨done, -, rfl⟩ := h.exists_prefix
  exact size_putAll done before

theorem getElem?_of_ne (h : Outcome writes answer before after) {i : ℕ}
    (hne : ∀ w ∈ writes, w.1.toNat ≠ i) : after[i]? = before[i]? := by
  obtain ⟨done, hdone, rfl⟩ := h.exists_prefix
  exact getElem?_putAll_of_ne done before fun w hw => hne w (hdone.subset hw)

theorem of_failed (e : ε) (bytes : Array UInt8) :
    Outcome writes (.error e : Except ε Unit) bytes bytes where
  of_ok h := by cases h
  of_error _ _ := ⟨[], List.nil_prefix, rfl⟩

theorem append_right (h : Outcome later answer (putAll before writes) after) :
    Outcome (writes ++ later) answer before after where
  of_ok hok := by rw [h.of_ok hok, putAll_append]
  of_error e he := by
    obtain ⟨done, hdone, hafter⟩ := h.of_error e he
    refine ⟨writes ++ done, (List.prefix_append_right_inj writes).mpr hdone, ?_⟩
    rw [hafter, putAll_append]

theorem append_left {e : ε} (h : Outcome writes (.error e) before after) :
    Outcome (writes ++ later) (.error e : Except ε Unit) before after where
  of_ok hok := by cases hok
  of_error _ _ := by
    obtain ⟨done, hdone, hafter⟩ := h.of_error e rfl
    exact ⟨done, hdone.trans (List.prefix_append writes later), hafter⟩

theorem eq_of_shown (h : Outcome writes answer before after)
    (hshown : ∀ w ∈ writes, before[w.1.toNat]? = some w.2) : after = before := by
  obtain ⟨done, hdone, rfl⟩ := h.exists_prefix
  exact putAll_eq_self done fun w hw => hshown w (hdone.subset hw)

end Outcome

namespace HonestStore

variable {σ : Type} [Store σ] [HonestStore σ] {s : σ}

/-- An honest store takes as many of the first bytes of a list as it can. -/
theorem outcome_writeAll : ∀ (writes : List (UInt64 × UInt8)) (s : σ), Intact s →
    Intact (Store.writeAll s writes).2 ∧
      Outcome writes (Store.writeAll s writes).1 (bytes s) (bytes (Store.writeAll s writes).2)
  | [], _, hi => ⟨hi, fun _ => rfl, fun _ h => by cases h⟩
  | (offset, value) :: writes, s, hi => by
    have hfirst := bytes_write offset value hi
    have hi' := intact_write offset value hi
    rw [Store.writeAll]
    rcases hw : Store.write s offset value with ⟨e | _, t⟩
    · rw [hw] at hfirst hi'
      dsimp only at hfirst hi' ⊢
      rw [hfirst]
      exact ⟨hi', Outcome.of_failed e _⟩
    · rw [hw] at hfirst hi'
      dsimp only at hfirst hi' ⊢
      obtain ⟨hrest, hout⟩ := outcome_writeAll writes t hi'
      rw [hfirst] at hout
      change Outcome writes _ (putAll (bytes s) [(offset, value)]) _ at hout
      exact ⟨hrest, hout.append_right⟩

end HonestStore

namespace Bridge

open HonestStore

variable {σ : Type} [Store σ] [HonestStore σ] {s : σ} {b : Bridge}

theorem publish_outcome (hi : Intact s) (writes : List (UInt64 × UInt8)) :
    Intact (publish s writes).2 ∧
      Outcome writes (publish s writes).1 (bytes s) (bytes (publish s writes).2) := by
  obtain ⟨hi', hout⟩ := outcome_writeAll writes s hi
  unfold publish
  rcases hw : Store.writeAll s writes with ⟨e | _, t⟩
  · rw [hw] at hi' hout
    exact ⟨hi', fun h => (by cases h), fun _ _ => hout.of_error e rfl⟩
  · rw [hw] at hi' hout
    exact ⟨hi', fun _ => hout.of_ok rfl, fun _ h => by cases h⟩

/-- An event moves the bridge whether or not it fails, and puts the first of what it
publishes. -/
theorem apply_outcome (hi : Intact s) (b : Bridge) (e : Event) :
    Intact (b.apply s e).2.2 ∧ (b.apply s e).2.1 = b.after (.event e) ∧
      Outcome (b.puts (bytes s).size (.event e)) (b.apply s e).1 (bytes s)
        (bytes (b.apply s e).2.2) := by
  obtain ⟨hi', hout⟩ := publish_outcome hi (b.route e (bytes s).size).1
  rw [apply_eq, size_of_intact hi]
  exact ⟨hi', rfl, hout⟩

/-- Letting all keys go does so on the keyboard whether or not it fails, and on the
joystick if the keyboard was published. It puts the first of what it publishes. -/
theorem releaseAll_outcome (hi : Intact s) (b : Bridge) :
    Intact (b.releaseAll s).2.2 ∧
      ((b.releaseAll s).2.1 = b.after .releaseAll ∨
        (∃ e, (b.releaseAll s).1 = .error e) ∧
          (b.releaseAll s).2.1 = b.afterFailed .releaseAll) ∧
      Outcome (b.puts (bytes s).size .releaseAll) (b.releaseAll s).1 (bytes s)
        (bytes (b.releaseAll s).2.2) := by
  obtain ⟨hi1, hout1⟩ := publish_outcome hi ((b.after .releaseAll).writes (bytes s).size .keyboard)
  have hsize1 := hout1.size_eq
  rcases releaseAll_cases b s with ⟨err, hfail, h⟩ | ⟨hok, h⟩
  · rw [size_of_intact hi] at hfail h
    rw [hfail] at hout1
    rw [h]
    exact ⟨hi1, Or.inr ⟨⟨err, rfl⟩, rfl⟩, hout1.append_left⟩
  · rw [size_of_intact hi] at hok h
    rw [size_of_intact hi1, hsize1] at h
    obtain ⟨hi2, hout2⟩ := publish_outcome hi1
      ((b.after .releaseAll).writes (bytes s).size .joystick)
    rw [hout1.of_ok hok] at hout2
    rw [h]
    exact ⟨hi2, Or.inl rfl, hout2.append_right⟩

/-! ### Bytes of a bridge -/

/-- Between two moments a bridge kept its layout and its port, and its store its size
and all bytes that are not the bridge's own. -/
structure Within (x y : Bridge × σ) : Prop where
  layout_eq : y.1.layout = x.1.layout
  port_eq : y.1.joystick.map (·.port) = x.1.joystick.map (·.port)
  intact : Intact y.2
  size_eq : (bytes y.2).size = (bytes x.2).size
  byteAt_eq : ∀ offset, ¬ x.1.Owns offset → byteAt y.2 offset = byteAt x.2 offset

variable {x y z : Bridge × σ}

theorem Within.refl (hi : Intact x.2) : Within x x := ⟨rfl, rfl, hi, rfl, fun _ _ => rfl⟩

theorem Within.trans (h : Within x y) (h' : Within y z) : Within x z where
  layout_eq := h'.layout_eq.trans h.layout_eq
  port_eq := h'.port_eq.trans h.port_eq
  intact := h'.intact
  size_eq := h'.size_eq.trans h.size_eq
  byteAt_eq offset ho := by
    have ho' : ¬ y.1.Owns offset := fun hy => ho ((owns_congr h.layout_eq h.port_eq).mp hy)
    exact (h'.byteAt_eq offset ho').trans (h.byteAt_eq offset ho)

theorem within_apply (hi : Intact s) (b : Bridge) (e : Event) :
    Within (b, s) (b.apply s e).2 := by
  obtain ⟨hi', hb, hout⟩ := apply_outcome hi b e
  refine ⟨?_, ?_, hi', hout.size_eq, fun offset ho => hout.getElem?_of_ne fun w hw heq => ho ?_⟩
  · rw [hb, layout_after]
  · rw [hb, port_after]
  · rw [← UInt64.toNat_inj.mp heq]
    exact owns_of_mem_route hw

/-- A batch changes no bytes but the bridge's own, wherever it stops. -/
theorem within_applyAll : ∀ (es : List Event) (b : Bridge) {s : σ}, Intact s →
    Within (b, s) (b.applyAll s es).2
  | [], _, _, hi => Within.refl hi
  | e :: es, b, s, hi => by
    have hfirst := within_apply hi b e
    rw [applyAll]
    rcases hx : b.apply s e with ⟨_ | _, b', s'⟩
    · rw [hx] at hfirst
      exact hfirst
    · rw [hx] at hfirst
      exact hfirst.trans (within_applyAll es b' hfirst.intact)

theorem within_releaseAll (hi : Intact s) (b : Bridge) : Within (b, s) (b.releaseAll s).2 := by
  obtain ⟨hi', hb, hout⟩ := releaseAll_outcome hi b
  have howns : ∀ w ∈ b.puts (bytes s).size .releaseAll, b.Owns w.1 := by
    intro w hw
    refine (owns_after b .releaseAll w.1).mp ?_
    rcases List.mem_append.mp hw with hw | hw <;> exact owns_of_mem_writes hw
  refine ⟨?_, ?_, hi', hout.size_eq, fun offset ho => hout.getElem?_of_ne fun w hw heq => ho ?_⟩
  · rcases hb with hb | ⟨-, hb⟩ <;> rw [hb] <;> rfl
  · rcases hb with hb | ⟨-, hb⟩ <;> rw [hb]
    · exact port_after b .releaseAll
    · exact port_afterFailed b .releaseAll
  · rw [← UInt64.toNat_inj.mp heq]
    exact howns w hw

/-! ### Parts that are published -/

/-- The bytes of a part show it, as far as they lie in the store. -/
def Shows (part : Part) (x : Bridge × σ) : Prop :=
  ∀ w ∈ x.1.writes (bytes x.2).size part, byteAt x.2 w.1 = some w.2

theorem shows_keyboard_iff : Shows .keyboard x ↔
    byteAt x.2 x.1.layout.colOffset = some x.1.keyboard.status.col ∧
      byteAt x.2 x.1.layout.rowOffset = some x.1.keyboard.status.row := by
  simp [Shows, writes, statusWrites]

/-- What publishes a part moves the bridge and puts the first of its bytes. -/
theorem perform_outcome (hi : Intact s) {part : Part} {a : BridgeAction}
    (hp : b.Publishes part a) :
    ((perform (b, s) a).1 = .ok () → (perform (b, s) a).2.1 = b.after a) ∧
      Outcome (b.puts (bytes s).size a) (perform (b, s) a).1 (bytes s)
        (bytes (perform (b, s) a).2.2) := by
  cases a with
  | event e =>
    obtain ⟨-, hb, hout⟩ := apply_outcome hi b e
    exact ⟨fun _ => hb, hout⟩
  | releaseAll =>
    obtain ⟨-, hb, hout⟩ := releaseAll_outcome hi b
    refine ⟨fun hok => ?_, hout⟩
    rcases hb with hb | ⟨⟨e, he⟩, -⟩
    · exact hb
    · rw [show (b.releaseAll s).1 = .ok () from hok] at he
      cases he
  | poke offset value => cases part <;> exact hp.elim

/-- **What publishes a part and is answered so makes the part's bytes show it**,
whatever they were. -/
theorem shows_of_publishes (hv : b.layout.Valid) (hi : Intact s)
    (hfits : b.layout.minLen.toNat ≤ (bytes s).size) {part : Part} {a : BridgeAction}
    (hp : b.Publishes part a) (hok : (perform (b, s) a).1 = .ok ()) :
    Shows part (perform (b, s) a).2 := by
  obtain ⟨hb, hout⟩ := perform_outcome hi hp
  intro w hw
  rw [hb hok, hout.size_eq] at hw
  unfold byteAt
  rw [hout.of_ok hok]
  exact getElem?_putAll_puts hv hfits hp hw

/-- What publishes a part succeeds while the store takes every byte inside it. -/
theorem ok_of_publishes (hv : b.layout.Valid) (hw : Writable s)
    (hfits : b.layout.minLen.toNat ≤ (bytes s).size) {part : Part} {a : BridgeAction}
    (hp : b.Publishes part a) : (perform (b, s) a).1 = .ok () := by
  cases a with
  | event e =>
    have hsize : Store.size s = (bytes s).size := ByteStore.size_eq hw
    refine (congrArg Prod.fst (apply_eq b s e)).trans (publish_eq hw fun w hm => ?_).1
    rw [hsize, fst_route_of_publishes _ hp] at hm
    exact inside_of_mem_writes hv hfits hm
  | releaseAll =>
    refine (releaseAll_eq hw fun w hm => ?_).1
    rcases List.mem_append.mp hm with hm | hm <;> exact inside_of_mem_writes hv hfits hm
  | poke offset value => cases part <;> exact hp.elim

end Bridge
end ScreenBridge
