/-
# A refused start

Starting looks at the grid, opens the segment, and only then looks at aliases,
joystick and cadence (`Application.start_cases`). There is no way back: settings
that are found to be at fault after the segment was made leave it behind, as
`Application.zero_divisor_leaves_a_segment` shows.

That is all they leave. A start that is refused because of its settings changes no
byte of a segment that was there and no file, and it adds a segment just if the grid
is a layout, a segment is to be made and the key finds none; then it is a single one
of zero bytes, as long as the layout with its joystick bytes
(`Application.refused_start_adds_at_most_a_segment`).

Key definitions: `SegmentSettings.Makes`, `Application.Failure.OfSettings`.
Key theorems: `Application.table_of_openSegment`, `Application.start_cases`,
`Application.refused_start_adds_at_most_a_segment`.
-/
import ScreenBridge.Application
import ScreenBridge.Proofs.Layout
import ScreenBridge.Proofs.Opening

namespace ScreenBridge

/-! ### Opening the segment of the settings -/

namespace SegmentSettings

/-- Opening the segment of the settings makes a new one. -/
def Makes (s : SegmentSettings) (t : SegmentTable) : Prop :=
  s.create = true ∧ (s.key = SegmentTable.privateKey ∨ t.Vacant s.key)

end SegmentSettings

namespace Application

open SegmentTable

variable {r : SegmentRefusals} {c : Config} {w u : World} {l : Layout} {e : Failure}

theorem max_fullLen (h : l.Valid) : max l.fullLen l.minLen = l.fullLen := by
  have hlen := h.toNat_fullLen
  refine if_neg fun hle => ?_
  have hle' := UInt64.le_iff_toNat_le.mp hle
  omega

/-- The table after the segment of the settings was opened. -/
theorem table_of_openSegment {s : SegmentSettings} (hl : l.Valid) {t t' : SegmentTable}
    {h : SegmentHandle} (hopen : openSegment r s l t = (.ok h, t')) :
    (¬ s.Makes t → t' = t) ∧ (s.Makes t → t' = t.grown s.key l.fullLen) := by
  unfold openSegment at hopen
  by_cases hcreate : s.create = true
  · rw [if_pos hcreate] at hopen
    cases hfind : t.find? s.key with
    | none =>
      obtain ⟨-, -, -, rfl⟩ := (create_eq_ok_iff hfind).mp hopen
      rw [max_fullLen hl]
      exact ⟨fun hnot => absurd ⟨hcreate, find?_eq_none_iff.mp hfind⟩ hnot, fun _ => rfl⟩
    | some number =>
      simp only [create, hfind] at hopen
      refine ⟨fun _ => (congrArg Prod.snd hopen).symm, fun hmakes => ?_⟩
      rw [find?_eq_none_iff.mpr hmakes.2] at hfind
      cases hfind
  · rw [if_neg hcreate] at hopen
    exact ⟨fun _ => (congrArg Prod.snd hopen).symm, fun hmakes => absurd hmakes.1 hcreate⟩

/-! ### The order of things -/

theorem layout_cases (c : Config) :
    (∃ l : Layout, l.Valid ∧ c.layout = .ok l) ∨ ∃ e, c.layout = .error (.layout e) := by
  unfold Config.layout
  cases hnew : Layout.new c.segment.width c.segment.height with
  | ok l => exact Or.inl ⟨l, Layout.valid_of_new hnew, rfl⟩
  | error e => exact Or.inr ⟨e, rfl⟩

/-- **What starting can do**: the grid is no layout, the segment is not opened, or
whatever comes of the rest, the table is as opening left it. -/
theorem start_cases (r : SegmentRefusals) (c : Config) (w : World) :
    (∃ e, c.layout = .error (.layout e) ∧ start r c w = (.error (.config (.layout e)), w)) ∨
    ∃ l : Layout, l.Valid ∧ c.layout = .ok l ∧
      ((∃ e t, openSegment r c.segment l w.segments = (.error e, t) ∧
        start r c w = (.error (.segment e), { w with segments := t })) ∨
      ∃ h t, openSegment r c.segment l w.segments = (.ok h, t) ∧
        start r c w = (assemble c l ⟨t, h⟩ w.files, { w with segments := t })) := by
  unfold start
  rcases layout_cases c with ⟨l, hl, hlayout⟩ | ⟨e, hlayout⟩ <;> rw [hlayout]
  · refine Or.inr ⟨l, hl, rfl, ?_⟩
    rcases hopen : openSegment r c.segment l w.segments with ⟨e | h, t⟩
    · exact Or.inl ⟨e, t, rfl, by simp only [hopen]⟩
    · exact Or.inr ⟨h, t, rfl, by simp only [hopen]⟩
  · exact Or.inl ⟨e, rfl, rfl⟩

/-- The settings are at fault: their grid, an alias, the joystick's port, or the
cadence. -/
inductive Failure.OfSettings : Failure → Prop
  | layout (e : LayoutError) : OfSettings (.config (.layout e))
  | aliasCell (e : MatrixError) : OfSettings (.config (.aliasCell e))
  | shadowedAlias (key : Key) : OfSettings (.config (.shadowedAlias key))
  | joystick (e : InvalidPort) : OfSettings (.config (.joystick e))
  | zeroDivisor : OfSettings (.schedule .zeroDivisor)

/-! ### What a refused start leaves behind -/

/-- **A refused start adds at most a segment.** When a start is refused because its
settings are at fault, the files are what they were and so is every segment that was
there. Without a layout, or if no segment was to be made or one was found, nothing has
changed at all. Otherwise there is exactly one more segment: it has the key of the
settings and is as long as the layout with its joystick bytes, all of them zero. -/
theorem refused_start_adds_at_most_a_segment (hstart : start r c w = (.error e, u))
    (hsettings : e.OfSettings) :
    u.files = w.files ∧ w.segments.Extends u.segments ∧
    (∀ e', c.layout = .error e' → u = w) ∧
    (¬ c.segment.Makes w.segments → u = w) ∧
    ∀ l, c.layout = .ok l → c.segment.Makes w.segments →
      u.segments = ⟨w.segments.segments.push
        ⟨c.segment.key, Array.replicate l.fullLen.toNat 0, false⟩⟩ := by
  rcases start_cases r c w with
    ⟨e', hlayout, heq⟩ | ⟨l, hl, hlayout, ⟨e', t, -, heq⟩ | ⟨h, t, hopen, heq⟩⟩
  · rw [heq] at hstart
    cases hstart
    refine ⟨rfl, .refl _, fun _ _ => rfl, fun _ => rfl, fun l hl => ?_⟩
    rw [hlayout] at hl
    cases hl
  · rw [heq] at hstart
    cases hstart
    cases hsettings
  · rw [heq] at hstart
    obtain rfl : { w with segments := t } = u := congrArg Prod.snd hstart
    obtain ⟨hkeeps, hmakes⟩ := table_of_openSegment hl hopen
    refine ⟨rfl, ?_, fun e' he' => ?_, fun hnot => ?_, fun l' hl' hmake => ?_⟩
    · by_cases hmake : c.segment.Makes w.segments
      · rw [hmakes hmake]
        exact extends_grown _ _ _
      · rw [hkeeps hmake]
        exact .refl _
    · rw [hlayout] at he'
      cases he'
    · rw [hkeeps hnot]
    · rw [hlayout] at hl'
      cases hl'
      exact hmakes hmake

/-- An alias names a ninth row, and the start is refused. The segment would have been
made, but the key finds one, which stays as it is. -/
theorem ninth_row_leaves_the_segment :
    let c : Config := { Config.standard with
      segment := ⟨5, 2, 2, true⟩, aliases := [⟨.keyA, 8, 0⟩] }
    let w : World := ⟨.fresh, ⟨#[⟨5, .replicate 6 7, false⟩]⟩⟩
    (start .nothing c w).1 = .error (.config (.aliasCell (.cellOutOfRange 8 0))) ∧ (start .nothing c w).2 = w := by
  intro c w
  have hlayout : c.layout = .ok ⟨2, 2⟩ := rfl
  have hheld : w.segments.Held 5 0 ⟨5, .replicate 6 7, false⟩ :=
    ⟨rfl, rfl, rfl, fun _ hlt => absurd hlt (Nat.not_lt_zero _)⟩
  have hopens : w.segments.Opens ⟨0, 5, 6⟩ := ⟨⟨_, rfl, rfl, rfl⟩, hheld.find?_eq⟩
  have hopen : openSegment .nothing c.segment ⟨2, 2⟩ w.segments = (.ok ⟨0, 5, 6⟩, w.segments) :=
    hopens.create_eq SegmentRefusals.maps_nothing (by decide) (by decide) 8
  have hfail : (start .nothing c w).1 = .error (.config (.aliasCell (.cellOutOfRange 8 0))) := by
    rw [start, hlayout]
    dsimp only
    rw [hopen]
    rfl
  have hfound : ¬ c.segment.Makes w.segments := by
    rintro ⟨-, hp | hvacant⟩
    · exact absurd hp (by decide)
    · exact hvacant 0 _ hheld.stands ⟨rfl, rfl⟩
  obtain ⟨-, -, -, hsame, -⟩ :=
    refused_start_adds_at_most_a_segment (Prod.ext hfail rfl) (.aliasCell _)
  exact ⟨hfail, hsame hfound⟩

/-- The grid and the joystick are in order, but no redraw is ever due. The start is
refused, and the segment that was made for it stays. -/
theorem zero_divisor_leaves_a_segment :
    let c : Config := { Config.standard with
      segment := ⟨0x5e000030, 4, 2, true⟩, cadence := ⟨50, 0⟩ }
    ∃ u, start .nothing c ⟨.fresh, .empty⟩ = (.error (.schedule .zeroDivisor), u) ∧
      Failure.OfSettings (.schedule .zeroDivisor) ∧
      u.segments = ⟨#[⟨0x5e000030, .replicate 12 0, false⟩]⟩ ∧ u.segments ≠ .empty := by
  intro c
  have hlayout : c.layout = .ok ⟨4, 2⟩ := rfl
  have hfind : SegmentTable.empty.find? 0x5e000030 = none := by simp [find?, empty]
  have hopen : openSegment .nothing c.segment ⟨4, 2⟩ .empty =
      (.ok ⟨0, 0x5e000030, 12⟩, ⟨#[⟨0x5e000030, .replicate 12 0, false⟩]⟩) :=
    (@create_eq_ok_iff .empty _ .nothing _ _ hfind 10 12).mpr ⟨rfl, rfl, rfl, rfl⟩
  refine ⟨⟨.fresh, ⟨#[⟨0x5e000030, .replicate 12 0, false⟩]⟩⟩, ?_, .zeroDivisor, rfl, by decide⟩
  rw [start, hlayout]
  dsimp only
  rw [hopen]
  rfl

end Application
end ScreenBridge
