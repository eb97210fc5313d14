/-
# Settings that pass leave no key out of reach

A list of aliases makes a matrix if each alias by itself is allowed, and otherwise
the first that is not decides what is wrong (`Config.foldlM_addAlias_eq_error_iff`). Of
several things that are wrong with one alias, that the joystick takes its key
comes first, then its place, then its key (`Config.Objection`).

The matrix has the places of the home computer and those of the aliases, and no
others (`Config.mem_entries`). No key of the joystick has a place on the home
computer, and none gets one from an alias while the joystick is enabled. So on a
bridge of these settings no key is taken from the matrix, and every key with a
place shows when it goes down.

Key definitions: `Config.Shadows`, `Config.Allowed`, `Config.Objection`,
`Alias.At`, `Bridge.afterAll`.
Key theorems: `Config.addAlias_cases`, `Config.foldlM_addAlias_eq_error_iff`,
`Config.foldlM_addAlias_ok_iff`, `Config.mem_entries`,
`Config.cellsFor_eq_nil_of_shadows`, `Bridge.Sound.status_press_ne`,
`Config.every_placed_key_reaches_the_matrix`.
-/
import ScreenBridge.Config
import ScreenBridge.Proofs.Routing

namespace ScreenBridge

/-- The alias names the crossing. -/
def Alias.At (a : Alias) (cell : Cell) : Prop :=
  a.row.toNat = cell.row ∧ a.col.toNat = cell.col

theorem Cell.new_eq_ok_iff {a : Alias} {cell : Cell} :
    Cell.new a.row a.col = .ok cell ↔ a.At cell := by
  obtain ⟨row, col⟩ := cell
  unfold Cell.new Alias.At
  constructor
  · intro h
    split at h
    · cases h
      exact ⟨rfl, rfl⟩
    · cases h
  · rintro ⟨hrow, hcol⟩
    simp [hrow, hcol]

/-- What placing a key does to the entries: they stay at the front, and the key has
its crossing. -/
theorem Matrix.mem_entries_add {m m' : Matrix} {key : Key} {cell : Cell}
    (h : m.add key cell = .ok m') :
    m.entries <+: m'.entries ∧ ∀ p, p ∈ m'.entries ↔ p ∈ m.entries ∨ p = (cell, key) := by
  unfold Matrix.add at h
  split at h
  · cases h
  · split at h
    · rename_i hmem
      obtain rfl := Except.ok.inj h
      refine ⟨List.prefix_rfl, fun p => ⟨Or.inl, ?_⟩⟩
      rintro (hp | rfl)
      · exact hp
      · exact hmem
    · obtain rfl := Except.ok.inj h
      exact ⟨List.prefix_append _ _, fun p => by simp⟩

namespace Config

/-- The joystick takes the key before the matrix does. -/
def Shadows (config : Config) (key : Key) : Prop :=
  config.joystick.enabled = true ∧ Joystick.isKey key = true

/-- Nothing is wrong with the alias. -/
structure Allowed (config : Config) (a : Alias) : Prop where
  reachable : ¬ config.Shadows a.key
  inside : a.row < 8 ∧ a.col < 8
  named : a.key ≠ .unknown

/-- What is wrong with the alias, of several things the first. -/
inductive Objection (config : Config) (a : Alias) : ConfigError → Prop
  | shadowed : config.Shadows a.key → Objection config a (.shadowedAlias a.key)
  | outside : ¬ config.Shadows a.key → ¬ (a.row < 8 ∧ a.col < 8) →
      Objection config a (.aliasCell (.cellOutOfRange a.row a.col))
  | unnamed : ¬ config.Shadows a.key → a.row < 8 ∧ a.col < 8 → a.key = .unknown →
      Objection config a (.aliasCell (.unmappableKey a.key))

variable {config : Config} {a : Alias} {m m' : Matrix} {e : ConfigError}

/-! ### One alias -/

/-- **What adding an alias can do.** It is allowed and its key is placed at its
crossing, or there is an objection. -/
theorem addAlias_cases (config : Config) (m : Matrix) (a : Alias) :
    (config.Allowed a ∧ ∃ cell m', a.At cell ∧ m.add a.key cell = .ok m' ∧
      config.addAlias m a = .ok m') ∨
    ∃ e, config.Objection a e ∧ config.addAlias m a = .error e := by
  unfold addAlias
  by_cases hshadows : config.Shadows a.key
  · exact Or.inr ⟨_, .shadowed hshadows, by rw [hshadows.1, hshadows.2]; rfl⟩
  have hfree : ¬ (config.joystick.enabled && Joystick.isKey a.key) = true := by
    rw [Bool.and_eq_true]
    exact hshadows
  rw [if_neg hfree]
  by_cases hinside : a.row < 8 ∧ a.col < 8
  · obtain ⟨cell, hcell⟩ : ∃ cell, Cell.new a.row a.col = .ok cell := ⟨_, dif_pos hinside⟩
    rw [hcell]
    by_cases hkey : a.key = .unknown
    · refine Or.inr ⟨_, .unnamed hshadows hinside hkey, ?_⟩
      simp [Matrix.add, hkey, Except.mapError]
    · obtain ⟨m', hadd⟩ : ∃ m', m.add a.key cell = .ok m' := by
        unfold Matrix.add
        rw [if_neg hkey]
        split <;> exact ⟨_, rfl⟩
      refine Or.inl ⟨⟨hshadows, hinside, hkey⟩, cell, m', Cell.new_eq_ok_iff.mp hcell, hadd, ?_⟩
      dsimp only
      rw [hadd]
      rfl
  · have hcell : Cell.new a.row a.col = .error (.cellOutOfRange a.row a.col) := dif_neg hinside
    exact Or.inr ⟨_, .outside hshadows hinside, by rw [hcell]⟩

theorem Allowed.not_objection (h : config.Allowed a) : ¬ config.Objection a e := by
  rintro (hshadows | ⟨-, hinside⟩ | ⟨-, -, hkey⟩)
  · exact h.reachable hshadows
  · exact hinside h.inside
  · exact h.named hkey

theorem Objection.unique {e' : ConfigError} (h : config.Objection a e)
    (h' : config.Objection a e') : e' = e := by
  cases h <;> cases h' <;> first | rfl | contradiction

/-! ### All aliases -/

/-- **The first alias with an objection decides.** -/
theorem foldlM_addAlias_eq_error_iff : ∀ (as : List Alias) (m : Matrix),
    as.foldlM config.addAlias m = .error e ↔
      ∃ before a after, as = before ++ a :: after ∧ (∀ b ∈ before, config.Allowed b) ∧
        config.Objection a e
  | [], m => by simp [pure, Except.pure]
  | a :: as, m => by
    rw [List.foldlM_cons]
    rcases addAlias_cases config m a with ⟨hallowed, -, m', -, -, hok⟩ | ⟨e', hobjection, herror⟩
    · rw [hok]
      refine (foldlM_addAlias_eq_error_iff as m').trans ⟨?_, ?_⟩
      · rintro ⟨before, a', after, rfl, hbefore, hobjection⟩
        exact ⟨a :: before, a', after, rfl, List.forall_mem_cons.mpr ⟨hallowed, hbefore⟩,
          hobjection⟩
      · rintro ⟨_ | ⟨b, before⟩, a', after, heq, hbefore, hobjection⟩
        · obtain ⟨rfl, -⟩ := List.cons.inj heq
          exact absurd hobjection hallowed.not_objection
        · obtain ⟨-, rfl⟩ := List.cons.inj heq
          exact ⟨before, a', after, rfl, (List.forall_mem_cons.mp hbefore).2, hobjection⟩
    · rw [herror]
      constructor
      · intro h
        exact ⟨[], a, as, rfl, by simp, Except.error.inj h ▸ hobjection⟩
      · rintro ⟨_ | ⟨b, before⟩, a', after, heq, hbefore, hobjection'⟩
        · obtain ⟨rfl, -⟩ := List.cons.inj heq
          exact congrArg _ (hobjection'.unique hobjection)
        · obtain ⟨rfl, -⟩ := List.cons.inj heq
          exact absurd hobjection (List.forall_mem_cons.mp hbefore).1.not_objection

/-- **The aliases are placed** if all of them are allowed. -/
theorem foldlM_addAlias_ok_iff : ∀ (as : List Alias) (m : Matrix),
    (∃ m', as.foldlM config.addAlias m = .ok m') ↔ ∀ a ∈ as, config.Allowed a
  | [], m => by simp [pure, Except.pure]
  | a :: as, m => by
    rw [List.foldlM_cons, List.forall_mem_cons]
    rcases addAlias_cases config m a with ⟨hallowed, -, m', -, -, hok⟩ | ⟨e', hobjection, herror⟩
    · rw [hok]
      exact (foldlM_addAlias_ok_iff as m').trans ⟨fun h => ⟨hallowed, h⟩, fun h => h.2⟩
    · rw [herror]
      refine iff_of_false ?_ fun h => h.1.not_objection hobjection
      rintro ⟨m', h⟩
      cases h

/-- **What a matrix with aliases has**: its entries, at the front, and one for each
alias. -/
theorem foldlM_addAlias_entries : ∀ (as : List Alias) {m m' : Matrix},
    as.foldlM config.addAlias m = .ok m' → m.Built →
      m'.Built ∧ m.entries <+: m'.entries ∧
        ∀ cell key, (cell, key) ∈ m'.entries ↔
          (cell, key) ∈ m.entries ∨ ∃ a ∈ as, a.key = key ∧ a.At cell
  | [], m, m', h, hm => by
    obtain rfl := Except.ok.inj h
    exact ⟨hm, List.prefix_rfl, by simp⟩
  | a :: as, m, m', h, hm => by
    rw [List.foldlM_cons] at h
    rcases addAlias_cases config m a with ⟨-, cell, m₁, hat, hadd, hok⟩ | ⟨e, -, herror⟩
    · rw [hok] at h
      obtain ⟨hbuilt, hprefix, hmem⟩ := foldlM_addAlias_entries as h (hm.add hadd)
      obtain ⟨hprefix₁, hmem₁⟩ := Matrix.mem_entries_add hadd
      refine ⟨hbuilt, hprefix₁.trans hprefix, fun cell' key => ?_⟩
      have hplace : (cell', key) = (cell, a.key) ↔ a.key = key ∧ a.At cell' := by
        rw [Prod.mk.injEq, eq_comm (a := key), and_comm]
        refine and_congr_right fun _ => ⟨fun heq => heq ▸ hat, fun hat' => ?_⟩
        exact Except.ok.inj ((Cell.new_eq_ok_iff.mpr hat').symm.trans (Cell.new_eq_ok_iff.mpr hat))
      rw [hmem, hmem₁, hplace, List.exists_mem_cons_iff, or_assoc]
    · rw [herror] at h
      cases h

/-- **The entries of a matrix of the settings** are those of the home computer and
those of the aliases. -/
theorem mem_entries (h : config.matrix = .ok m) (cell : Cell) (key : Key) :
    (cell, key) ∈ m.entries ↔
      (cell, key) ∈ Matrix.standard.entries ∨ ∃ a ∈ config.aliases, a.key = key ∧ a.At cell :=
  (foldlM_addAlias_entries _ h .standard).2.2 cell key

/-! ### Keys of the joystick -/

theorem not_isKey_standard : ∀ p ∈ Matrix.standard.entries, Joystick.isKey p.2 = false := by
  decide +kernel

/-- A key that the joystick takes has no place in the matrix. -/
theorem cellsFor_eq_nil_of_shadows (h : config.matrix = .ok m) {key : Key}
    (hshadows : config.Shadows key) : m.cellsFor key = [] := by
  refine List.eq_nil_iff_forall_not_mem.mpr fun cell hcell => ?_
  rcases (mem_entries h cell key).mp (Matrix.mem_cellsFor.mp hcell) with hmem | ⟨a, ha, rfl, -⟩
  · have hnot := not_isKey_standard _ hmem
    rw [hshadows.2] at hnot
    cases hnot
  · exact ((foldlM_addAlias_ok_iff _ _).mp ⟨m, h⟩ a ha).reachable hshadows

/-- The joystick is plugged in while it is enabled. -/
theorem isSome_port {port : Option Port} (h : config.port = .ok port) :
    port.isSome = config.joystick.enabled := by
  unfold Config.port at h
  split at h
  · rename_i henabled
    split at h
    · obtain rfl := Except.ok.inj h
      exact henabled.symm
    · cases h
  · rename_i henabled
    obtain rfl := Except.ok.inj h
    exact (Bool.eq_false_iff.mpr henabled).symm

end Config

/-! ### Bridges of the settings -/

namespace Bridge

/-- The bridge after actions, one after another. -/
def afterAll (b : Bridge) (actions : List BridgeAction) : Bridge := actions.foldl after b

/-- Whatever happens to a bridge, its counters count, and its layout, its matrix and
the keys that the joystick takes stay. -/
theorem Sound.afterAll : ∀ (actions : List BridgeAction) {b : Bridge}, b.Sound →
    (b.afterAll actions).Sound ∧ (b.afterAll actions).layout = b.layout ∧
      (b.afterAll actions).keyboard.matrix = b.keyboard.matrix ∧
      ∀ key, (b.afterAll actions).takes key = b.takes key
  | [], _, h => ⟨h, rfl, rfl, fun _ => rfl⟩
  | a :: actions, b, h => by
    obtain ⟨hsound, hlayout, hmatrix, htakes⟩ := Sound.afterAll actions (h.after a)
    exact ⟨hsound, hlayout.trans (layout_after b a), hmatrix.trans (matrix_after b a),
      fun key => (htakes key).trans (takes_after b a key)⟩

variable {b : Bridge} {key : Key}

/-- **A key with a place shows** when it goes down while no key is held: it changes
both status bytes, and they are published. -/
theorem Sound.status_press_ne (h : b.Sound) (ht : b.takes key = false)
    (hc : b.keyboard.matrix.cellsFor key ≠ []) (hrest : b.keyboard.held = []) :
    let pressed := b.after (.event ⟨.down, key⟩)
    pressed.keyboard.status.row ≠ b.keyboard.status.row ∧
      pressed.keyboard.status.col ≠ b.keyboard.status.col ∧
      ∀ size, (b.route ⟨.down, key⟩ size).1 = statusWrites b.layout pressed.keyboard.status := by
  intro pressed
  have hsound : pressed.keyboard.Sound := (h.after _).keyboard
  have hmatrix : pressed.keyboard.matrix = b.keyboard.matrix := matrix_after b _
  have hheld : key ∈ pressed.keyboard.held :=
    (h.mem_keyboardHeld_after ⟨.down, key⟩ key).mpr (by simp [ht, hc])
  obtain ⟨cell, hcell⟩ := List.exists_mem_of_ne_nil _ hc
  refine ⟨fun heq => ?_, fun heq => ?_, fun size => fst_route_of_keyboard size ⟨ht, ?_⟩⟩
  · have hbit := (hsound.testBit_row cell.row).mpr ⟨key, hheld, cell, hmatrix ▸ hcell, rfl⟩
    rw [heq, h.keyboard.testBit_row, hrest] at hbit
    simp at hbit
  · have hbit := (hsound.testBit_col cell.col).mpr ⟨key, hheld, cell, hmatrix ▸ hcell, rfl⟩
    rw [heq, h.keyboard.testBit_col, hrest] at hbit
    simp at hbit
  · refine (h.keyboard.applied_iff_held_ne ⟨.down, key⟩).mpr fun hsame => ?_
    have hnew : key ∈ (b.keyboard.apply ⟨.down, key⟩).2.held :=
      (h.keyboard.mem_held_apply ⟨.down, key⟩ key).mpr (by simp [hc])
    rw [hsame, hrest] at hnew
    cases hnew

end Bridge

namespace Config

/-- **Settings that pass leave no key out of reach.** There is a matrix exactly if
every alias has a row and a column below eight, a key with a name, and one that the
joystick does not take; otherwise the first alias that is not like this is at fault.
The matrix has the 64 places of the home computer, first, and those of the aliases.

If the joystick can be set up too, then whatever happens to a bridge of these settings,
a key that the joystick takes has no place in the matrix; and a key with a place that
goes down while none is held changes both bytes of the matrix status and is published. -/
theorem every_placed_key_reaches_the_matrix (config : Config) :
    ((∃ m, config.matrix = .ok m) ↔ ∀ a ∈ config.aliases, config.Allowed a) ∧
    (∀ e, config.matrix = .error e ↔ ∃ before a after, config.aliases = before ++ a :: after ∧
      (∀ b ∈ before, config.Allowed b) ∧ config.Objection a e) ∧
    ∀ m, config.matrix = .ok m →
      (Matrix.standard.entries.length = 64 ∧ Matrix.standard.entries <+: m.entries ∧
        m.entries.Nodup ∧ ∀ cell key, (cell, key) ∈ m.entries ↔
          (cell, key) ∈ Matrix.standard.entries ∨ ∃ a ∈ config.aliases, a.key = key ∧ a.At cell) ∧
      ∀ port, config.port = .ok port → ∀ (l : Layout) (actions : List BridgeAction),
        let b := (Bridge.idle l m port).afterAll actions
        (∀ key, b.takes key = true ↔ config.Shadows key) ∧
        (∀ key, b.takes key = true → b.keyboard.matrix.cellsFor key = []) ∧
        ∀ key, m.cellsFor key ≠ [] → b.keyboard.held = [] →
          let pressed := b.after (.event ⟨.down, key⟩)
          pressed.keyboard.status.row ≠ b.keyboard.status.row ∧
            pressed.keyboard.status.col ≠ b.keyboard.status.col ∧
            ∀ size, (b.route ⟨.down, key⟩ size).1 =
              Bridge.statusWrites l pressed.keyboard.status := by
  refine ⟨foldlM_addAlias_ok_iff _ _, fun e => foldlM_addAlias_eq_error_iff _ _, fun m hm => ?_⟩
  obtain ⟨hbuilt, hprefix, hmem⟩ := foldlM_addAlias_entries _ hm .standard
  refine ⟨⟨by decide, hprefix, hbuilt.nodup, hmem⟩, fun port hport l actions => ?_⟩
  intro b
  obtain ⟨hsound, hlayout, hmatrix, htakes⟩ := (Bridge.sound_idle l hbuilt port).afterAll actions
  have hshadows : ∀ key, b.takes key = true ↔ config.Shadows key := fun key => by
    rw [htakes, Bridge.takes, Bool.and_eq_true, Shadows, ← isSome_port hport]
    cases port <;> rfl
  have hnone : ∀ key, b.takes key = true → b.keyboard.matrix.cellsFor key = [] := by
    intro key htaken
    rw [hmatrix]
    exact cellsFor_eq_nil_of_shadows hm ((hshadows key).mp htaken)
  refine ⟨hshadows, hnone, fun key hc hrest => ?_⟩
  have hcells : b.keyboard.matrix.cellsFor key ≠ [] := by
    rw [hmatrix]
    exact hc
  have hfree : b.takes key = false := Bool.eq_false_iff.mpr fun htaken => hcells (hnone key htaken)
  have hpress := hsound.status_press_ne hfree hcells hrest
  rw [hlayout] at hpress
  exact hpress

/-- The key for the cursor going up at two places, and the joystick at port 2: the
right shift key's crossing shows when the key goes down. -/
theorem cursor_up_reaches_the_matrix :
    let config : Config := { standard with
      aliases := [⟨.arrowUp, 6, 4⟩, ⟨.arrowUp, 0, 7⟩], joystick := ⟨true, 2⟩ }
    config.matrix = .ok .withCursorUp ∧
    let b := Bridge.idle .standard .withCursorUp (some .two)
    b.takes .keypad8 = true ∧ Matrix.withCursorUp.cellsFor .keypad8 = [] ∧
      (b.after (.event ⟨.down, .arrowUp⟩)).keyboard.status.row ≠ b.keyboard.status.row := by
  intro config
  have hmatrix : config.matrix = .ok .withCursorUp := by decide +kernel
  obtain ⟨-, -, hbridge⟩ := every_placed_key_reaches_the_matrix config
  obtain ⟨-, hreach⟩ := hbridge _ hmatrix
  obtain ⟨-, hnone, hshows⟩ := hreach (some .two) rfl .standard []
  have htakes : (Bridge.idle .standard .withCursorUp (some .two)).takes .keypad8 = true := rfl
  exact ⟨hmatrix, htakes, hnone .keypad8 htakes, (hshows .arrowUp (by decide +kernel) rfl).1⟩

end Config
end ScreenBridge
