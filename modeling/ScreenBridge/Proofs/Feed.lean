/-
# A feed is heard line by line

Feeding bytes to a channel sends the events of their lines (`Channel.feed_eq`), up to the
first line that is no text. A line that is no command has no events, and neither has a
carriage return an effect at the end of a line (`Channel.spoken_dropReturn`). So lines
that say nothing may come and go (`Channel.spoken_silent`), and it is the same to feed a
text at once or cut behind a newline (`Channel.heard_append`).

Key definitions: `Command.eventsOf`, `Command.Silent`, `Text.textsOf`,
`Channel.spoken`, `Channel.heard`.
Key theorems: `Channel.sendAll_append`, `Channel.feedLines_eq`, `Channel.feed_eq`,
`Channel.heard_append`, `Channel.feeding_is_line_by_line`.
-/
import ScreenBridge.Input
import ScreenBridge.Proofs.Command
import ScreenBridge.Proofs.Lines

namespace ScreenBridge

namespace Command

/-! ### What a line contributes -/

/-- The events of a line. A line that is no command has none. -/
def eventsOf (line : String) : List Event :=
  match parse line with
  | .ok events => events
  | .error _ => []

/-- A line that is blank, a comment or at fault. -/
inductive Silent (line : String) : Prop
  | blank : Text.AllBlank line.toList → Silent line
  | comment (gap rest : List Char) :
      Text.AllBlank gap → line.toList = gap ++ '#' :: rest → Silent line
  | malformed (e : CommandError) : parse line = .error e → Silent line

variable {line : String} {events : List Event}

theorem eventsOf_of_ok (h : parse line = .ok events) : eventsOf line = events := by
  rw [eventsOf, h]

theorem eventsOf_of_error {e : CommandError} (h : parse line = .error e) : eventsOf line = [] := by
  rw [eventsOf, h]

theorem eventsOf_congr {other : String} (h : Text.words line.toList = Text.words other.toList) :
    eventsOf line = eventsOf other := by
  have hparse : parse line = parse other := parse_eq_of_says (h ▸ says_parse other)
  rw [eventsOf, eventsOf, hparse]

theorem Silent.eventsOf_eq (h : Silent line) : eventsOf line = [] := by
  cases h with
  | blank hblank =>
    have hwords := Text.words_append_blanks hblank []
    exact eventsOf_of_ok (parse_of_no_words hwords)
  | comment gap rest hgap hline =>
    obtain ⟨w, ws, hwords⟩ := Text.exists_words_cons (c := '#') (by decide) rest
    rw [← Text.words_blanks_append hgap, ← hline] at hwords
    exact eventsOf_of_ok (parse_of_comment hwords)
  | malformed e herror => exact eventsOf_of_error herror

end Command

namespace Text

instance (bytes : List UInt8) : Decidable (IsText bytes) :=
  decidable_of_iff ((ofUtf8? bytes).isSome = true) (by simp [Option.isSome_iff_exists,
    ofUtf8?_eq_some_iff, IsText])

/-- The lines up to the first that is no text, as texts. -/
def textsOf (lines : List (List UInt8)) : List String :=
  (lines.takeWhile fun line => IsText line).filterMap ofUtf8?

theorem textsOf_cons_of_text (text : String) (lines : List (List UInt8)) :
    textsOf (utf8 text :: lines) = text :: textsOf lines := by
  have htext : IsText (utf8 text) := ⟨text, rfl⟩
  simp [textsOf, htext]

theorem textsOf_cons_of_not {line : List UInt8} (h : ¬ IsText line) (lines : List (List UInt8)) :
    textsOf (line :: lines) = [] := by
  simp [textsOf, h]

end Text

namespace Channel

/-! ### Sending -/

/-- Sending events adds them to those that are queued, if both ends are there. -/
theorem sendAll_eq : ∀ (es : List Event) (c : Channel),
    c.sendAll es = if c.canSend then (es.length, { c with queued := c.queued ++ es }) else (0, c)
  | [], c => by simp [sendAll]
  | e :: es, c => by
    by_cases h : c.canSend = true
    · have hsend : c.send e = (true, { c with queued := c.queued ++ [e] }) := if_pos h
      have hcan : canSend { c with queued := c.queued ++ [e] } = true := h
      rw [sendAll, hsend]
      dsimp only
      rw [sendAll_eq es, if_pos hcan, if_pos h]
      simp
    · have hsend : c.send e = (false, c) := if_neg h
      rw [sendAll, hsend, if_neg h]

/-- Sending events in two parts is sending them all. -/
theorem sendAll_append (c : Channel) (es later : List Event) :
    c.sendAll (es ++ later) =
      ((c.sendAll es).1 + ((c.sendAll es).2.sendAll later).1,
        ((c.sendAll es).2.sendAll later).2) := by
  by_cases h : c.canSend = true
  · have hcan : canSend { c with queued := c.queued ++ es } = true := h
    simp [sendAll_eq, h, hcan]
  · simp [sendAll_eq, h]

/-! ### Lines -/

/-- The events of lines, up to the first that is no text. -/
def spoken (lines : List (List UInt8)) : List Event :=
  (Text.textsOf lines).flatMap Command.eventsOf

/-- The events of the lines of some bytes. -/
def heard (bytes : List UInt8) : List Event := spoken (bytes.splitOn 10)

theorem spoken_cons_of_text (text : String) (lines : List (List UInt8)) :
    spoken (Text.utf8 text :: lines) = Command.eventsOf text ++ spoken lines := by
  rw [spoken, Text.textsOf_cons_of_text, List.flatMap_cons, spoken]

theorem spoken_cons_of_not {line : List UInt8} (h : ¬ Text.IsText line)
    (lines : List (List UInt8)) : spoken (line :: lines) = [] := by
  rw [spoken, Text.textsOf_cons_of_not h, List.flatMap_nil]

theorem spoken_cons_congr (line : List UInt8) {lines lines' : List (List UInt8)}
    (h : spoken lines = spoken lines') : spoken (line :: lines) = spoken (line :: lines') := by
  by_cases hline : Text.IsText line
  · obtain ⟨text, rfl⟩ := hline
    rw [spoken_cons_of_text, spoken_cons_of_text, h]
  · rw [spoken_cons_of_not hline, spoken_cons_of_not hline]

/-- **Lines of texts are heard one after another.** -/
theorem spoken_append : ∀ {lines : List (List UInt8)}, (∀ line ∈ lines, Text.IsText line) →
    ∀ later, spoken (lines ++ later) = spoken lines ++ spoken later
  | [], _, _ => rfl
  | _ :: lines, h, later => by
    obtain ⟨⟨text, rfl⟩, hlines⟩ := List.forall_mem_cons.mp h
    rw [List.cons_append, spoken_cons_of_text, spoken_cons_of_text, spoken_append hlines,
      List.append_assoc]

theorem spoken_silent {text : String} (h : Command.eventsOf text = []) (after : List (List UInt8)) :
    ∀ before : List (List UInt8),
      spoken (before ++ Text.utf8 text :: after) = spoken (before ++ after)
  | [] => by rw [List.nil_append, spoken_cons_of_text, h, List.nil_append, List.nil_append]
  | line :: before => by
    exact spoken_cons_congr line (spoken_silent h after before)

theorem spoken_empty_line : spoken [[]] = spoken [] := by
  have hempty : Command.eventsOf "" = [] := rfl
  exact spoken_silent hempty [] []

/-- **Lines that are fed send what is spoken in them.** -/
theorem feedLines_eq : ∀ (lines : List (List UInt8)) (c : Channel),
    c.feedLines lines = c.sendAll (spoken lines)
  | [], c => by rw [feedLines, spoken]; rfl
  | line :: lines, c => by
    by_cases hline : Text.IsText line
    · obtain ⟨text, rfl⟩ := hline
      rw [feedLines, Text.ofUtf8?_utf8, spoken_cons_of_text]
      dsimp only
      split
      · rename_i e herror
        rw [Command.eventsOf_of_error herror, List.nil_append, feedLines_eq lines c]
      · rename_i events hok
        rw [Command.eventsOf_of_ok hok, sendAll_append, feedLines_eq lines]
        split
        · -- an event was not sent, and then no other is
          rename_i hless
          have hcan : ¬ c.canSend = true := by
            intro hcan
            simp [sendAll_eq, hcan] at hless
          simp [sendAll_eq, hcan]
        · rfl
    · rw [feedLines, Text.ofUtf8?_eq_none_iff.mpr hline, spoken_cons_of_not hline]
      rfl

/-- A carriage return at the end of a line has no effect. -/
theorem spoken_dropReturn (line : List UInt8) (lines : List (List UInt8)) :
    spoken (Text.dropReturn line :: lines) = spoken (line :: lines) := by
  unfold Text.dropReturn
  split
  · rename_i hlast
    obtain ⟨front, rfl⟩ := List.getLast?_eq_some_iff.mp hlast
    rw [List.dropLast_concat]
    by_cases hfront : Text.IsText front
    · obtain ⟨text, rfl⟩ := hfront
      have hwhole : Text.utf8 text ++ [13] = Text.utf8 (text ++ "\r") := by
        rw [Text.utf8_append]
        rfl
      have hblank : Text.AllBlank ['\r'] := by
        intro c hc
        rw [List.mem_singleton.mp hc]
        decide
      have hwords : Text.words (text ++ "\r").toList = Text.words text.toList := by
        rw [String.toList_append]
        exact Text.words_append_blanks hblank _
      rw [hwhole, spoken_cons_of_text, spoken_cons_of_text, Command.eventsOf_congr hwords]
    · have hwhole : ¬ Text.IsText (front ++ [13]) := fun h =>
        hfront ((Text.isText_append_cons_iff (by decide)).mp h).1
      rw [spoken_cons_of_not hfront, spoken_cons_of_not hwhole]
  · rfl

/-- The last line need not end, and an empty one says nothing. -/
theorem spoken_linesAfter : ∀ (bytes passed : List UInt8),
    spoken (Text.linesAfter passed bytes) = spoken (bytes.splitOnPPrepend (· == 10) passed)
  | [], passed => by
    rw [Text.linesAfter, List.splitOnPPrepend_nil]
    split
    · rename_i hpassed
      rw [List.isEmpty_iff.mp hpassed]
      exact spoken_empty_line.symm
    · rfl
  | b :: bytes, passed => by
    have hnext := spoken_linesAfter bytes
    rw [Text.linesAfter]
    split
    · rename_i hb
      subst hb
      rw [spoken_dropReturn, List.splitOnPPrepend_cons_pos (by rfl)]
      exact spoken_cons_congr _ (hnext [])
    · rename_i hb
      rw [List.splitOnPPrepend_cons_neg (by simpa using hb)]
      exact hnext (b :: passed)

/-- **Bytes that are fed send what is heard in them.** -/
theorem feed_eq (c : Channel) (bytes : List UInt8) : c.feed bytes = c.sendAll (heard bytes) := by
  have hlines : spoken (Text.byteLines bytes) = heard bytes := spoken_linesAfter bytes []
  rw [feed, feedLines_eq, hlines]

/-- A text in front of a newline is heard before what comes behind it. -/
theorem heard_append {a : List UInt8} (ha : Text.IsText a) (b : List UInt8) :
    heard (a ++ 10 :: b) = heard a ++ heard b := by
  rw [heard, List.splitOn_append_cons_self,
    spoken_append fun line hline => Text.isText_of_mem_splitOn ha hline]
  rfl

theorem heard_append_newline {a : List UInt8} (ha : Text.IsText a) :
    heard (a ++ [10]) = heard a := by
  rw [heard_append ha]
  exact List.append_nil _

/-- Lines that say nothing are not heard among others. -/
theorem heard_intercalate_silent {line : String} (hline : Command.Silent line)
    {before after : List (List UInt8)}
    (hlines : ∀ l ∈ before ++ Text.utf8 line :: after, 10 ∉ l) :
    heard ([10].intercalate (before ++ Text.utf8 line :: after)) =
      heard ([10].intercalate (before ++ after)) := by
  have hevents := hline.eventsOf_eq
  rw [heard, List.splitOn_intercalate 10 hlines (by simp), spoken_silent hevents]
  by_cases hnone : before ++ after = []
  · rw [hnone]
    exact spoken_empty_line.symm
  · have hothers : ∀ l ∈ before ++ after, 10 ∉ l := fun l hl => hlines l (by
      rcases List.mem_append.mp hl with hl | hl
      · exact List.mem_append_left _ hl
      · exact List.mem_append_right _ (List.mem_cons_of_mem _ hl))
    rw [heard, List.splitOn_intercalate 10 hothers hnone]

/-- **Feeding is hearing line by line.** Whatever the bytes, a feed sends the events of
their lines in order, up to the first line that is no text, and tells how many these are;
lines that are no commands contribute nothing. To feed a text up to a newline and then
what follows is to feed all of it at once. A line that is blank, a comment or at fault may
come or go anywhere among the others. Once the receiver is gone, a feed sends nothing and
leaves the channel as it is. -/
theorem feeding_is_line_by_line (c : Channel) :
    (∀ bytes, c.canSend = true →
      let texts :=
        ((bytes.splitOn 10).takeWhile fun line => Text.IsText line).filterMap Text.ofUtf8?
      let events := texts.flatMap Command.eventsOf
      c.feed bytes = (events.length, { c with queued := c.queued ++ events })) ∧
    (∀ (a : String) (b : List UInt8),
      let first := c.feed (Text.utf8 a ++ [10])
      let second := first.2.feed b
      c.feed (Text.utf8 a ++ 10 :: b) = (first.1 + second.1, second.2)) ∧
    (∀ line, Command.Silent line → ∀ before after : List (List UInt8),
      (∀ l ∈ before ++ Text.utf8 line :: after, 10 ∉ l) →
      c.feed ([10].intercalate (before ++ Text.utf8 line :: after)) =
        c.feed ([10].intercalate (before ++ after))) ∧
    (c.receiverOpen = false → ∀ bytes, c.feed bytes = (0, c)) := by
  refine ⟨fun bytes hcan => ?_, fun a b => ?_, fun line hline before after hlines => ?_,
    fun hgone bytes => ?_⟩
  · rw [feed_eq, sendAll_eq, if_pos hcan]
    rfl
  · have ha : Text.IsText (Text.utf8 a) := ⟨a, rfl⟩
    simp only [feed_eq, heard_append_newline ha]
    rw [heard_append ha, sendAll_append]
  · rw [feed_eq, feed_eq, heard_intercalate_silent hline hlines]
  · have hcan : ¬ c.canSend = true := by simp [canSend, hgone]
    rw [feed_eq, sendAll_eq, if_neg hcan]

/-- A byte that no text has ends the input, but not a comment between two commands. -/
theorem commands_around_comment_and_stray_byte :
    empty.feed (Text.utf8 "tap a\r\n" ++ 255 :: 10 :: Text.utf8 "up b") =
        (2, { empty with queued := [⟨.down, .keyA⟩, ⟨.up, .keyA⟩] }) ∧
      empty.feed ([10].intercalate [Text.utf8 "down a", Text.utf8 " # b\r", Text.utf8 "up a"]) =
        empty.feed ([10].intercalate [Text.utf8 "down a", Text.utf8 "up a"]) ∧
      empty.dropReceiver.feed (Text.utf8 "tap a") = (0, empty.dropReceiver) := by
  obtain ⟨hheard, -, hsilent, -⟩ := feeding_is_line_by_line empty
  have hgap : Text.AllBlank [' '] := by
    intro c hc
    rw [List.mem_singleton.mp hc]
    decide
  have hcomment : Command.Silent " # b\r" := .comment [' '] [' ', 'b', '\r'] hgap rfl
  refine ⟨hheard _ rfl, hsilent _ hcomment [Text.utf8 "down a"] [Text.utf8 "up a"] (by decide), ?_⟩
  exact (feeding_is_line_by_line empty.dropReceiver).2.2.2 rfl _

end Channel
end ScreenBridge
