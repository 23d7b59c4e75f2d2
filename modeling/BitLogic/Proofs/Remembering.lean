import BitLogic.Prompt.Session
import BitLogic.Proofs.Basics
import BitLogic.Proofs.Storage
import Mathlib.Data.List.TakeWhile

/-!
# What the Prompt Remembers

The history of a session is written to a file, and the next session begins with what it reads
there. The two do not always agree.

Writing puts a line feed behind each line of the history, whatever is in the line. Reading
takes a carriage return at the end of a line for a part of the line end, and it gives up
at a line that does not fit the buffer or is not valid UTF-8. So a line is read back if it
is valid, fits together with its line feed, and does not end in a carriage return
(`History.Lasting`). Behind a line that reading gives up at, nothing is read back, lasting or
not, and the next session writes only what is left.

All lines of a history are free of line feeds, and there are never more than are kept. That is
what one step of a session preserves (`Prompt.kept_enter`), hence a whole session
(`Prompt.kept_converse`), and it is why nothing else can be lost.

## Main definitions

* `History.Kept`: No line has a line feed, and there are not too many lines.
* `History.isReadable`: Reading does not give up at the line.
* `History.readBack`: What is read of a history that was written.
* `History.Lasting`: The line is read back as it is.
* `Prompt.held`: The history at the end of a session.

## Theorems

* `Prompt.lineFeed_notMem_firstLine`, `Prompt.lineFeed_notMem_lines`: No line has a line
  feed in it.
* `Prompt.lines_of_ne_nil`, `Prompt.lines_entry`, `Prompt.lines_long`: The first line of
  a file.
* `History.keep_of_short`: A short history is kept as a whole.
* `History.lines_text`, `History.ofText_text`: What is read of a history that was
  written.
* `History.readBack_eq_iff`: When that is all of it.
* `History.kept_keep`, `History.kept_add`, `History.kept_ofText`, `History.kept_load`:
  What a history is made from is in order.
* `Prompt.mem_of_mem_trimBlanks`: Cutting off blanks adds nothing.
* `Prompt.kept_enter`, `Prompt.kept_foldl_enter`, `Prompt.kept_converse`,
  `Prompt.kept_held`: A session keeps the history in order.
* `history_survives_iff`: What the next session begins with.
* `held_lastingInput`, `history_survives_iff_lastingInput`: Two lines that last.
* `history_lost_garbledInput`: A line that is no text.
-/

namespace BitLogic

namespace Prompt

/-! ## Lines of a file -/

theorem lineFeed_notMem_firstLine (t : Text) : Text.lineFeed ∉ (firstLine t).1.text := by
  have hrun := List.notMem_takeWhile_ne Text.lineFeed (t.take bufferSize)
  unfold firstLine
  simp only
  split
  · exact fun hmem => hrun (Text.mem_of_mem_dropReturn _ _ hmem)
  · next hwhole =>
    -- There is no line feed in the window at all.
    rw [(List.takeWhile_prefix _).eq_of_length_le (Nat.le_of_not_lt hwhole)] at hrun
    split
    · exact hrun
    · exact fun hmem => hrun (Text.mem_of_mem_dropReturn _ _ hmem)

theorem lines_of_ne_nil (t : Text) (h : t ≠ []) :
    lines t = (firstLine t).1 :: lines (t.drop (firstLine t).2) := by
  cases t with
  | nil => exact absurd rfl h
  | cons b t => rw [lines]

/-- No line of an input has a line feed in it. -/
theorem lineFeed_notMem_lines (t : Text) : ∀ l ∈ lines t, Text.lineFeed ∉ l.text := by
  fun_induction lines t with
  | case1 => exact List.forall_mem_nil _
  | case2 b t first ih =>
      rw [List.forall_mem_cons]
      exact ⟨lineFeed_notMem_firstLine (b :: t), ih⟩

/-- A line that fits the buffer together with its line feed. -/
theorem lines_entry (e rest : Text) (he : Text.lineFeed ∉ e) (hfit : e.length < bufferSize) :
    lines (e ++ Text.lineFeed :: rest) = ⟨Text.dropReturn e, true⟩ :: lines rest := by
  have hne : ∀ b ∈ e, decide (b ≠ Text.lineFeed) = true := by
    intro b hb
    exact decide_eq_true fun heq => he (heq ▸ hb)
  -- The window reaches at least to the line feed.
  have hwindow : (e ++ Text.lineFeed :: rest).take bufferSize =
      e ++ Text.lineFeed :: rest.take (bufferSize - e.length - 1) := by
    rw [List.take_append, List.take_of_length_le (by omega),
      show bufferSize - e.length = bufferSize - e.length - 1 + 1 by omega, List.take_succ_cons,
      Nat.add_sub_cancel]
  have hrun : (e ++ Text.lineFeed :: rest.take (bufferSize - e.length - 1)).takeWhile
      (· ≠ Text.lineFeed) = e := by
    rw [List.takeWhile_append_of_pos hne, List.takeWhile_cons_of_neg (by decide), List.append_nil]
  have hfirst : firstLine (e ++ Text.lineFeed :: rest) =
      (⟨Text.dropReturn e, true⟩, e.length + 1) := by
    unfold firstLine
    simp only
    rw [hwindow, hrun, if_pos (by rw [List.length_append, List.length_cons]; omega)]
  have hdrop : (e ++ Text.lineFeed :: rest).drop (e.length + 1) = rest := by
    rw [← List.drop_drop, List.drop_left]
    rfl
  rw [lines_of_ne_nil _ (List.append_ne_nil_of_right_ne_nil e (List.cons_ne_nil _ _)), hfirst,
    hdrop]

/-- A line that does not fit arrives in pieces. -/
theorem lines_long (e rest : Text) (he : Text.lineFeed ∉ e) (hlong : ¬ e.length < bufferSize) :
    ∃ l ls, lines (e ++ Text.lineFeed :: rest) = l :: ls ∧ l.isWhole = false := by
  refine ⟨_, _, lines_of_ne_nil _
    (List.append_ne_nil_of_right_ne_nil e (List.cons_ne_nil _ _)), ?_⟩
  have hwindow : (e ++ Text.lineFeed :: rest).take bufferSize = e.take bufferSize :=
    List.take_append_of_le_length (by omega)
  have hlen : (e.take bufferSize).length = bufferSize := by
    rw [List.length_take]
    omega
  -- The buffer is full before a line feed is seen.
  have hrun : (e.take bufferSize).takeWhile (· ≠ Text.lineFeed) = e.take bufferSize := by
    rw [List.takeWhile_eq_self_iff]
    intro b hb
    exact decide_eq_true fun heq => he (heq ▸ List.mem_of_mem_take hb)
  unfold firstLine
  simp only
  rw [hwindow, hrun, if_neg (Nat.lt_irrefl _), hlen, if_neg (Nat.lt_irrefl _)]

end Prompt

namespace History

open Prompt (bufferSize lines)
open Text (dropReturn)

/-! ## Written and read back -/

/-- Reading does not give up at the line. -/
def isReadable (e : Text) : Bool := e.length < bufferSize && Utf8.valid (dropReturn e)

/-- What is read of a history that was written: the lines before the first that cannot be
    read, without a carriage return at their ends. -/
def readBack (h : History) : History := (h.takeWhile isReadable).map dropReturn

/-- The line is read back as it is. -/
structure Lasting (e : Text) : Prop where
  fits : e.length < bufferSize
  valid : Utf8.valid e = true
  noReturn : e.getLast? ≠ some Text.carriageReturn

/-- No line has a line feed, and there are not too many lines. -/
structure Kept (h : History) : Prop where
  lines : ∀ e ∈ h, Text.lineFeed ∉ e
  short : h.length ≤ limit

theorem keep_of_short (h : History) (hshort : h.length ≤ limit) : keep h = h := by
  rw [keep, Nat.sub_eq_zero_of_le hshort, List.drop_zero]

/-- The lines of a written history are its own, up to the first that cannot be read. -/
theorem lines_text (h : History) (hlines : ∀ e ∈ h, Text.lineFeed ∉ e) :
    ((lines (text h)).takeWhile fun l => l.isWhole && Utf8.valid l.text).map Prompt.Line.text =
      readBack h := by
  induction h with
  | nil =>
      rw [text, List.flatMap_nil, lines]
      rfl
  | cons e h ih =>
      -- A line that fits is one line of the file. At one that does not, reading ends.
      rw [List.forall_mem_cons] at hlines
      have htext : text (e :: h) = e ++ Text.lineFeed :: text h := by
        rw [text, List.flatMap_cons, List.append_assoc]
        rfl
      rw [htext, readBack, List.takeWhile_cons, isReadable]
      by_cases hfit : e.length < bufferSize
      · rw [Prompt.lines_entry e _ hlines.1 hfit, List.takeWhile_cons]
        simp only [hfit, decide_true, Bool.true_and]
        by_cases hvalid : Utf8.valid (dropReturn e) = true
        · rw [if_pos hvalid, if_pos hvalid, List.map_cons, List.map_cons, ih hlines.2]
          rfl
        · rw [if_neg hvalid, if_neg hvalid]
          rfl
      · rcases Prompt.lines_long e (text h) hlines.1 hfit with ⟨l, ls, hl, hwhole⟩
        rw [hl, List.takeWhile_cons, hwhole]
        simp only [hfit, decide_false, Bool.false_and]
        rfl

/-- What is read of a history that was written. -/
theorem ofText_text (h : History) (hkept : Kept h) : ofText (text h) = readBack h := by
  rw [ofText, lines_text h hkept.lines]
  refine keep_of_short _ ?_
  rw [readBack, List.length_map]
  exact Nat.le_trans (List.takeWhile_prefix _).length_le hkept.short

/-- A history is read back as a whole if and only if every line of it lasts. -/
theorem readBack_eq_iff (h : History) : readBack h = h ↔ ∀ e ∈ h, Lasting e := by
  constructor
  · intro heq
    -- Nothing is missing, so reading gives up nowhere.
    have hlen := congrArg List.length heq
    rw [readBack, List.length_map] at hlen
    have hall := (List.takeWhile_prefix isReadable).eq_of_length hlen
    rw [readBack, hall] at heq
    have hmap := List.map_inj_left.mp (heq.trans (List.map_id h).symm)
    rw [List.takeWhile_eq_self_iff] at hall
    intro e he
    have hreadable := hall e he
    have hsame : dropReturn e = e := hmap e he
    rw [isReadable, hsame, Bool.and_eq_true, decide_eq_true_eq] at hreadable
    exact ⟨hreadable.1, hreadable.2, (Text.dropReturn_eq_self_iff e).mp hsame⟩
  · intro hlasting
    -- No line ends in a carriage return, so none is shortened.
    have hsame : ∀ e ∈ h, dropReturn e = id e :=
      fun e he => Text.dropReturn_of_ne e (hlasting e he).noReturn
    have hall : h.takeWhile isReadable = h := by
      rw [List.takeWhile_eq_self_iff]
      intro e he
      rw [isReadable, hsame e he, Bool.and_eq_true, decide_eq_true_eq]
      exact ⟨(hlasting e he).fits, (hlasting e he).valid⟩
    rw [readBack, hall, List.map_congr_left hsame, List.map_id]

/-! ## Sessions -/

theorem kept_keep (h : History) (hlines : ∀ e ∈ h, Text.lineFeed ∉ e) : Kept (keep h) := by
  refine ⟨fun e he => hlines e (List.mem_of_mem_drop he), ?_⟩
  rw [keep, List.length_drop]
  omega

/-- A line without line feeds can be added to a history that is in order. -/
theorem kept_add (h : History) (line : Text) (hkept : Kept h) (hline : Text.lineFeed ∉ line) :
    Kept (h.add line) := by
  unfold add
  split
  · exact hkept
  · -- The oldest lines are dropped if there are too many, and the new one has no line feed.
    refine kept_keep _ ?_
    rw [List.forall_mem_append, List.forall_mem_singleton]
    exact ⟨hkept.lines, hline⟩

theorem kept_ofText (t : Text) : Kept (ofText t) := by
  refine kept_keep _ ?_
  intro e he
  rcases List.mem_map.mp he with ⟨l, hl, rfl⟩
  exact Prompt.lineFeed_notMem_lines t l ((List.takeWhile_prefix _).subset hl)

theorem kept_load (files : Files) (path : Text) : Kept (load files path) := by
  unfold load
  split
  · exact kept_ofText _
  · exact ⟨List.forall_mem_nil _, Nat.zero_le _⟩

end History

namespace Prompt

theorem mem_of_mem_trimBlanks (t : Text) (b : UInt8) (h : b ∈ trimBlanks t) : b ∈ t := by
  unfold trimBlanks at h
  exact List.mem_of_mem_drop (List.mem_of_mem_take h)

/-- A line leaves the history in order. -/
theorem kept_enter (c : Console) (p : Progress) (line : Line) (hp : p.history.Kept)
    (hline : Text.lineFeed ∉ line.text) : (enter c p line).history.Kept := by
  unfold enter
  simp only
  split
  · exact hp
  · exact History.kept_add _ _ hp fun hmem => hline (mem_of_mem_trimBlanks _ _ hmem)

/-- Lines that are entered one after the other leave the history in order. -/
theorem kept_foldl_enter (c : Console) (ls : List Line) (hls : ∀ l ∈ ls, Text.lineFeed ∉ l.text) :
    ∀ p : Progress, p.history.Kept → (ls.foldl (enter c) p).history.Kept := by
  induction ls with
  | nil => exact fun p hp => hp
  | cons l ls ih =>
      intro p hp
      rw [List.forall_mem_cons] at hls
      exact ih hls.2 _ (kept_enter c p l hp hls.1)

/-- A session leaves the history in order. -/
theorem kept_converse (c : Console) (h : History) (input : Text) (hkept : h.Kept) :
    (converse c h input).history.Kept := by
  unfold converse
  split
  · -- The lines that are entered come from an input that was cut at its line feeds.
    exact kept_foldl_enter c _ (lineFeed_notMem_lines input) ⟨{}, h⟩ hkept
  · exact hkept

/-- The history at the end of a session that began with the one in its file. -/
def held (c : Console) (files : Files) (input : Text) : History :=
  (converse c (History.load files c.settings.historyFile) input).history

theorem kept_held (c : Console) (files : Files) (input : Text) : (held c files input).Kept :=
  kept_converse c _ input (History.kept_load files _)

end Prompt

/-- A session whose history is saved leaves it in its file, and the next session begins with
    what can be read of it. That is the whole history if and only if every line of it is valid,
    fits the buffer with its line feed and does not end in a carriage return. -/
theorem history_survives_iff (c : Console) (files saved : Files) (input : Text)
    (hset : c.settings.historyFile ≠ [])
    (hsave : files.write c.settings.historyFile (Prompt.held c files input).text = .ok saved) :
    (Prompt.session c files input).2 = saved ∧
    History.load saved c.settings.historyFile = (Prompt.held c files input).readBack ∧
    (History.load saved c.settings.historyFile = Prompt.held c files input ↔
      ∀ e ∈ Prompt.held c files input, History.Lasting e) := by
  have hsession : (Prompt.session c files input).2 = saved := by
    rw [Prompt.held] at hsave
    rw [Prompt.session, if_neg (by rw [List.isEmpty_iff]; exact hset)]
    simp only [hsave]
  -- The file has the content it was given, and that is read line by line.
  have hload : History.load saved c.settings.historyFile =
      (Prompt.held c files input).readBack := by
    rw [History.load, Files.read_write files saved _ _ hsave]
    exact History.ofText_text _ (Prompt.kept_held c files input)
  refine ⟨hsession, hload, ?_⟩
  rw [hload]
  exact History.readBack_eq_iff _

/-- A console with a history. -/
def rememberingConsole : Console := ⟨{ historyFile := Text.ofString "h" }, .plain⟩

/-- Two lines that last, the second with blanks around it. -/
def lastingInput : Text := Text.ofString "1 1 A\n  0 and()\t\r\n"

theorem held_lastingInput : Prompt.held rememberingConsole [] lastingInput =
    [Text.ofString "1 1 A", Text.ofString "0 and()"] := by
  decide +kernel

theorem history_survives_iff_lastingInput :
    (Prompt.session rememberingConsole [] lastingInput).2 =
      [(Text.ofString "h", Text.ofString "1 1 A\n0 and()\n")] ∧
    History.load (Prompt.session rememberingConsole [] lastingInput).2 (Text.ofString "h") =
      [Text.ofString "1 1 A", Text.ofString "0 and()"] := by
  have hsave : Files.write [] rememberingConsole.settings.historyFile
      (Prompt.held rememberingConsole [] lastingInput).text =
        .ok [(Text.ofString "h", Text.ofString "1 1 A\n0 and()\n")] := by
    rw [held_lastingInput]
    rfl
  have hlasting : ∀ e ∈ Prompt.held rememberingConsole [] lastingInput, History.Lasting e := by
    rw [held_lastingInput, List.forall_mem_cons, List.forall_mem_singleton]
    exact ⟨⟨by decide +kernel, by decide +kernel, by decide +kernel⟩,
      ⟨by decide +kernel, by decide +kernel, by decide +kernel⟩⟩
  rcases history_survives_iff rememberingConsole [] _ lastingInput (by decide +kernel) hsave with
    ⟨hsession, -, hwhole⟩
  refine ⟨hsession, ?_⟩
  rw [hsession, ← held_lastingInput]
  exact hwhole.mpr hlasting

/-- A byte that is no character, and a line that lasts. -/
def garbledInput : Text := 255 :: Text.ofString "\n1 1 A\n"

/-- Behind a line that is no text nothing is read back, and the next session empties the
    file. -/
theorem history_lost_garbledInput :
    Prompt.held rememberingConsole [] garbledInput = [[255], Text.ofString "1 1 A"] ∧
    History.load (Prompt.session rememberingConsole [] garbledInput).2 (Text.ofString "h") = [] ∧
    (Prompt.session rememberingConsole
      (Prompt.session rememberingConsole [] garbledInput).2 []).2 = [(Text.ofString "h", [])] := by
  decide +kernel

end BitLogic
