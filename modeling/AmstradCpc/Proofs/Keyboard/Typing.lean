import AmstradCpc.Proofs.Keyboard.EventOrder

/-!
# Typed text on the matrix

A key event changes one place of the matrix, so keys that have been pressed on a released keyboard
are the ones that are down (`Keyboard.Shows`).

Text that is typed on an empty queue stands in it stroke by stroke (`KeyQueue.typeChars_eq`): the
keys of a character go down together, up together three frames later, and those of the next
character go down another three frames later. The queue sets the releases of a character behind all
of its presses, and a stroke begins after the last one has ended. So at any frame the matrix shows
one character or none.
-/

namespace AmstradCpc

/-! ## Keys on the matrix -/

theorem Key.bit_lt (key : Key) : key.bit < 8 := Nat.mod_lt _ (by decide)

/-- The key is wired to a place of the matrix. -/
def Key.IsAt (key : Key) (line bit : Nat) : Prop := key.line = line ∧ key.bit = bit

theorem Key.testBit_mask (key : Key) {bit : Nat} (hbit : bit < 8) :
    key.mask.toNat.testBit bit = decide (key.bit = bit) := by
  have hmask : ∀ n m : Fin 8,
      ((1 : UInt8) <<< n.val.toUInt8).toNat.testBit m = decide (n.val = m) := by
    decide
  exact hmask ⟨key.bit, key.bit_lt⟩ ⟨bit, hbit⟩

namespace Keyboard

/-- What is wired to a place of the matrix is down. -/
def IsDown (kb : Keyboard) (line bit : Nat) : Prop := (kb.read line).toNat.testBit bit = false

/-- These keys are down, and nothing else is. -/
def Shows (kb : Keyboard) (keys : List Key) : Prop :=
  ∀ line bit, bit < 8 → (kb.IsDown line bit ↔ ∃ key ∈ keys, key.IsAt line bit)

section

variable (kb : Keyboard) (key : Key) (line : Nat) {bit : Nat} (hbit : bit < 8)

theorem read_change (mask : UInt8) (pressed : Bool) :
    (kb.change key.line mask pressed).read line =
      if key.line = line then
        if pressed then kb.read line &&& ~~~mask else kb.read line ||| mask
      else kb.read line := by
  unfold change read
  rw [dif_pos key.line_lt, Vector.getElem?_set]
  by_cases hline : key.line = line
  · subst hline
    rw [if_pos rfl, if_pos rfl, Vector.getElem?_eq_getElem key.line_lt, Option.getD_some,
      Option.getD_some]
  · rw [if_neg hline, if_neg hline]

include hbit

theorem isDown_press :
    (kb.press key).IsDown line bit ↔ kb.IsDown line bit ∨ key.IsAt line bit := by
  unfold IsDown press Key.IsAt
  rw [read_change]
  by_cases hline : key.line = line
  · have hmask : (~~~key.mask).toNat.testBit bit = !decide (key.bit = bit) := by
      rw [← key.testBit_mask hbit]
      simp only [← UInt8.toNat_toBitVec, UInt8.toBitVec_not, BitVec.testBit_toNat,
        BitVec.getLsbD_not, hbit, decide_true, Bool.true_and]
    rw [if_pos hline, if_pos rfl, UInt8.toNat_and, Nat.testBit_and, hmask, Bool.and_eq_false_iff]
    simp [hline]
  · simp [hline]

theorem isDown_release :
    (kb.release key).IsDown line bit ↔ kb.IsDown line bit ∧ ¬key.IsAt line bit := by
  unfold IsDown release Key.IsAt
  rw [read_change]
  by_cases hline : key.line = line
  · rw [if_pos hline, if_neg Bool.false_ne_true, UInt8.toNat_or, Nat.testBit_or,
      key.testBit_mask hbit]
    simp [hline]
  · simp [hline]

end

/-! ## Chords -/

section

variable {kb : Keyboard} (keys : List Key)

theorem isDown_pressKeys (kb : Keyboard) (line : Nat) {bit : Nat} (hbit : bit < 8) :
    (keys.foldl (fun kb key => kb.press key) kb).IsDown line bit ↔
      kb.IsDown line bit ∨ ∃ key ∈ keys, key.IsAt line bit := by
  induction keys generalizing kb with
  | nil => simp
  | cons key keys ih =>
    rw [List.foldl_cons, ih, isDown_press kb key line hbit, or_assoc]
    simp only [List.mem_cons, exists_eq_or_imp]

theorem isDown_releaseKeys (kb : Keyboard) (line : Nat) {bit : Nat} (hbit : bit < 8) :
    (keys.foldl (fun kb key => kb.release key) kb).IsDown line bit ↔
      kb.IsDown line bit ∧ ∀ key ∈ keys, ¬key.IsAt line bit := by
  induction keys generalizing kb with
  | nil => simp
  | cons key keys ih =>
    rw [List.foldl_cons, ih, isDown_release kb key line hbit, List.forall_mem_cons, and_assoc]

theorem shows_released : ({} : Keyboard).Shows [] := by
  intro line bit hbit
  have hread : ({} : Keyboard).read line = 0xFF := by
    unfold read
    rw [Vector.getElem?_replicate]
    split <;> rfl
  have hones : ∀ n : Fin 8, (0xFF : UInt8).toNat.testBit n = true := by decide
  unfold IsDown
  rw [hread, hones ⟨bit, hbit⟩]
  simp

theorem Shows.press (h : kb.Shows []) :
    (keys.foldl (fun kb key => kb.press key) kb).Shows keys := by
  intro line bit hbit
  rw [isDown_pressKeys keys kb line hbit, h line bit hbit]
  simp

theorem Shows.release (h : kb.Shows keys) :
    (keys.foldl (fun kb key => kb.release key) kb).Shows [] := by
  intro line bit hbit
  rw [isDown_releaseKeys keys kb line hbit, h line bit hbit]
  simp

end

end Keyboard

/-- The characters of a text that the keyboard has. -/
def KeyboardLayout.supported (layout : KeyboardLayout) (text : List Char) : List Char :=
  text.filter (layout.keys · ≠ [])

namespace KeyQueue

/-! ## Strokes -/

/-- Keys that all go down, or up, at a frame. -/
def chord (frame : Nat) (pressed : Bool) (keys : List Key) : List KeyEvent :=
  keys.map fun key => { frame, key, pressed }

/-- Chords that are held for three frames, one every six frames. -/
def strokes : List (List Key) → Nat → List KeyEvent
  | [], _ => []
  | keys :: rest, start =>
    chord start true keys ++ (chord (start + 3) false keys ++ strokes rest (start + 6))

theorem frame_of_mem_chord {frame : Nat} {pressed : Bool} {keys : List Key} {e : KeyEvent}
    (h : e ∈ chord frame pressed keys) : e.frame = frame := by
  obtain ⟨key, -, rfl⟩ := List.mem_map.mp h
  rfl

theorem frame_le_of_mem_stroke {old : List KeyEvent} {start : Nat}
    (hold : ∀ e ∈ old, e.frame ≤ start) {keys keys' : List Key} {e : KeyEvent}
    (h : e ∈ old ++ (chord start true keys ++ chord (start + 3) false keys')) :
    e.frame ≤ start + 3 := by
  rcases List.mem_append.mp h with h | h
  · exact Nat.le_add_right_of_le (hold e h)
  rcases List.mem_append.mp h with h | h
  · have := frame_of_mem_chord h
    omega
  · exact Nat.le_of_eq (frame_of_mem_chord h)

theorem le_frame_of_mem_strokes {chords : List (List Key)} {start : Nat} {e : KeyEvent}
    (h : e ∈ strokes chords start) : start ≤ e.frame := by
  induction chords generalizing start with
  | nil => cases h
  | cons keys chords ih =>
    rcases List.mem_append.mp h with h | h
    · exact Nat.le_of_eq (frame_of_mem_chord h).symm
    rcases List.mem_append.mp h with h | h
    · have := frame_of_mem_chord h
      omega
    · have := ih h
      omega

/-! ## Typing -/

theorem insertEvent_last {e : KeyEvent} {events : List KeyEvent}
    (h : ∀ d ∈ events, d.frame ≤ e.frame) : insertEvent e events = events ++ [e] := by
  have hlast := insertEvent_append e h (List.forall_mem_nil _)
  rwa [List.append_nil] at hlast

/-- Behind events that are due by `start`, the keys go down at `start` and up three frames later. -/
theorem foldl_tap {old : List KeyEvent} {start : Nat} (hold : ∀ e ∈ old, e.frame ≤ start)
    (keys : List Key) :
    keys.foldl (fun (q : KeyQueue) key => q.tap key start holdFrames) ⟨old⟩ =
      ⟨old ++ (chord start true keys ++ chord (start + 3) false keys)⟩ := by
  induction keys using List.reverseRecOn with
  | nil => exact congrArg KeyQueue.mk (List.append_nil old).symm
  | append_singleton keys key ih =>
    have hdown : ∀ e ∈ old ++ chord start true keys, e.frame ≤ start := by
      intro e he
      rcases List.mem_append.mp he with he | he
      · exact hold e he
      · exact Nat.le_of_eq (frame_of_mem_chord he)
    have hpress : insertEvent ⟨start, key, true⟩
        (old ++ (chord start true keys ++ chord (start + 3) false keys)) =
          old ++ (chord start true (keys ++ [key]) ++ chord (start + 3) false keys) := by
      have hup : ∀ e ∈ chord (start + 3) false keys, start < e.frame := by
        intro e he
        have := frame_of_mem_chord he
        omega
      rw [← List.append_assoc, insertEvent_append _ hdown hup]
      simp [chord]
    have hrelease : insertEvent ⟨start + 3, key, false⟩
        (old ++ (chord start true (keys ++ [key]) ++ chord (start + 3) false keys)) =
          old ++ (chord start true (keys ++ [key]) ++ chord (start + 3) false (keys ++ [key])) := by
      rw [insertEvent_last fun e he => frame_le_of_mem_stroke hold he]
      simp [chord]
    rw [List.foldl_append, ih]
    exact congrArg KeyQueue.mk ((congrArg _ hpress).trans hrelease)

theorem typeChars_eq (layout : KeyboardLayout) (text : List Char) {old : List KeyEvent}
    {start : Nat} (hold : ∀ e ∈ old, e.frame ≤ start) :
    typeChars layout text start ⟨old⟩ =
      (start + 6 * (layout.supported text).length,
        ⟨old ++ strokes ((layout.supported text).map layout.keys) start⟩) := by
  induction text generalizing old start with
  | nil => simp [typeChars, strokes, KeyboardLayout.supported]
  | cons c text ih =>
    rw [typeChars, typeChar]
    cases hkeys : layout.keys c with
    | nil =>
      rw [KeyboardLayout.supported, List.filter_cons_of_neg (by simpa using hkeys)]
      exact ih hold
    | cons key keys =>
      rw [KeyboardLayout.supported, List.filter_cons_of_pos (by simp [hkeys])]
      dsimp only
      rw [foldl_tap hold, ih, KeyboardLayout.supported]
      · simp [strokes, hkeys, holdFrames, gapFrames]
        omega
      · intro e he
        exact Nat.le_add_right_of_le (frame_le_of_mem_stroke hold he)

/-! ## Playing -/

theorem shows_chord_press {kb : Keyboard} (h : kb.Shows []) (frame : Nat) (keys : List Key) :
    ((chord frame true keys).foldl KeyEvent.apply kb).Shows keys := by
  rw [chord, List.foldl_map]
  exact h.press keys

theorem shows_chord_release {kb : Keyboard} {keys : List Key} (h : kb.Shows keys) (frame : Nat) :
    ((chord frame false keys).foldl KeyEvent.apply kb).Shows [] := by
  rw [chord, List.foldl_map]
  exact h.release keys

/-- Once strokes have been played up to a frame, the matrix shows the chord that is held then. -/
theorem process_strokes {kb : Keyboard} (h : kb.Shows []) (chords : List (List Key))
    (start f : Nat) :
    let played := process f ⟨strokes chords start⟩ kb
    (∀ i keys, chords[i]? = some keys → start + 6 * i ≤ f → f < start + 6 * i + 3 →
      played.2.Shows keys) ∧
    ((∀ i < chords.length, ¬(start + 6 * i ≤ f ∧ f < start + 6 * i + 3)) → played.2.Shows []) ∧
    (start + 6 * chords.length ≤ f → played.1 = {}) := by
  induction chords generalizing kb start with
  | nil => exact ⟨fun i keys hi => (nomatch hi), fun _ => h, fun _ => rfl⟩
  | cons keys chords ih =>
    rcases Nat.lt_or_ge f start with hbefore | hdown
    · rw [process_early fun e he => Nat.lt_of_lt_of_le hbefore (le_frame_of_mem_strokes he)]
      refine ⟨fun i keys' hi hfrom => ?_, fun _ => h, fun hend => ?_⟩ <;> omega
    rw [strokes, process_append fun e he => by rw [frame_of_mem_chord he]; exact hdown]
    have hkeys := shows_chord_press h start keys
    rcases Nat.lt_or_ge f (start + 3) with hheld | hup
    · have hlater : ∀ e ∈ chord (start + 3) false keys ++ strokes chords (start + 6),
          f < e.frame := by
        intro e he
        rcases List.mem_append.mp he with he | he
        · rwa [frame_of_mem_chord he]
        · have := le_frame_of_mem_strokes he
          omega
      rw [process_early hlater]
      refine ⟨fun i keys' hi hfrom _ => ?_, fun hnone => ?_, fun hend => ?_⟩
      · obtain rfl : i = 0 := by omega
        exact Option.some.inj hi ▸ hkeys
      · exact (hnone 0 (Nat.zero_lt_succ _) ⟨hdown, hheld⟩).elim
      · rw [List.length_cons] at hend
        omega
    · rw [process_append fun e he => by rw [frame_of_mem_chord he]; exact hup]
      obtain ⟨hshown, hidle, hempty⟩ := ih (shows_chord_release hkeys (start + 3)) (start + 6)
      refine ⟨fun i keys' hi hfrom huntil => ?_, fun hnone => hidle fun i hi => ?_, fun hend => ?_⟩
      · obtain ⟨i, rfl⟩ : ∃ j, i = j + 1 := ⟨i - 1, by omega⟩
        exact hshown i keys' hi (by omega) (by omega)
      · have := hnone (i + 1) (Nat.succ_lt_succ hi)
        omega
      · rw [List.length_cons] at hend
        exact hempty (by omega)

/-- Plays up to one frame after another. -/
def processAll (frames : List Nat) (q : KeyQueue) (kb : Keyboard) : KeyQueue × Keyboard :=
  frames.foldl (fun s f => s.1.process f s.2) (q, kb)

/-- Only the last frame counts. -/
theorem processAll_append {frames : List Nat} {f : Nat} (h : (frames ++ [f]).Pairwise (· ≤ ·))
    (q : KeyQueue) (kb : Keyboard) : q.processAll (frames ++ [f]) kb = q.process f kb := by
  induction frames generalizing q kb with
  | nil => rfl
  | cons f₀ frames ih =>
    obtain ⟨hfirst, hrest⟩ := List.pairwise_cons.mp h
    have hle : f₀ ≤ f := hfirst f (List.mem_append_right frames (List.mem_singleton_self f))
    exact (ih hrest _ _).trans (process_process hle q kb)

/-- Text that is typed on an empty queue is shown by the matrix character by character. The keys of
a character are down for three frames, then nothing is for another three; characters that the
keyboard does not have are passed over. -/
theorem typed_shown (layout : KeyboardLayout) (text : String) (start : Nat) (frames : List Nat)
    (f : Nat) (h : (frames ++ [f]).Pairwise (· ≤ ·)) :
    let supported := layout.supported text.toList
    let typed := KeyQueue.type layout text start {}
    let played := typed.2.processAll (frames ++ [f]) {}
    (∀ i c, supported[i]? = some c → start + 6 * i ≤ f → f < start + 6 * i + 3 →
      played.2.Shows (layout.keys c)) ∧
    ((∀ i < supported.length, ¬(start + 6 * i ≤ f ∧ f < start + 6 * i + 3)) →
      played.2.Shows []) ∧
    typed.1 = start + 6 * supported.length ∧
    (typed.1 ≤ f → played.1 = {}) := by
  intro supported typed played
  have htyped : typed =
      (start + 6 * supported.length, ⟨strokes (supported.map layout.keys) start⟩) :=
    typeChars_eq layout text.toList (List.forall_mem_nil _)
  have hplayed : played = process f ⟨strokes (supported.map layout.keys) start⟩ {} := by
    show typed.2.processAll (frames ++ [f]) {} = _
    rw [processAll_append h, htyped]
  obtain ⟨hshown, hidle, hempty⟩ :=
    process_strokes Keyboard.shows_released (supported.map layout.keys) start f
  rw [List.length_map] at hidle hempty
  rw [hplayed, htyped]
  refine ⟨fun i c hc => hshown i (layout.keys c) ?_, hidle, rfl, hempty⟩
  rw [List.getElem?_map, hc, Option.map_some]

/-- A shifted character is typed behind one that the keyboard does not have, and then a letter. -/
theorem typed_shown_shifted :
    let typed := KeyQueue.type .qwerty "é?a" 10 {}
    ([4, 11] ++ [12]).Pairwise (· ≤ ·) ∧
      (typed.2.processAll ([4, 11] ++ [12]) {}).2.Shows [.shift, .slash] ∧
      ([11] ++ [13]).Pairwise (· ≤ ·) ∧ (typed.2.processAll ([11] ++ [13]) {}).2.Shows [] ∧
      typed.1 = 22 ∧ (typed.2.processAll ([] ++ [22]) {}).1 = {} := by
  have hsupported : KeyboardLayout.qwerty.supported "é?a".toList = ['?', 'a'] := by decide
  obtain ⟨hshown, -, hnext, -⟩ := typed_shown .qwerty "é?a" 10 [4, 11] 12 (by decide)
  obtain ⟨-, hidle, -⟩ := typed_shown .qwerty "é?a" 10 [11] 13 (by decide)
  obtain ⟨-, -, -, hempty⟩ := typed_shown .qwerty "é?a" 10 [] 22 (by decide)
  rw [hsupported] at hshown hidle hnext
  exact ⟨by decide, hshown 0 '?' rfl (by decide) (by decide), by decide, hidle (by decide), hnext,
    hempty (by rw [hnext]; decide)⟩

end KeyQueue

end AmstradCpc
