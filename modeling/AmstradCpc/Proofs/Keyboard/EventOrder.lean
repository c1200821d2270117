import AmstradCpc.Keyboard.Queue
import Mathlib.Data.List.Induction

/-!
# The order of key events

Events are pushed for any frames, also for ones that have passed, while the queue is being played.
It stays in the order of the frames, and an ordered queue is cut in two at a frame: all that is due
stands in front (`KeyQueue.filter_append_filter`). An event is put in where the queue is cut at its
frame.

Of the events of one frame, those that have been applied, followed by those that wait, are the ones
that were pushed, in the order in which they were (`Playback.Faithful`). So an event that is pushed
waits until it is applied, and that happens once.
-/

namespace AmstradCpc

namespace KeyQueue

/-! ## Playing up to a frame -/

section

variable {f f' : Nat} {e : KeyEvent} {events : List KeyEvent}

theorem process_cons_of_le (h : e.frame ≤ f) (kb : Keyboard) :
    process f ⟨e :: events⟩ kb = process f ⟨events⟩ (e.apply kb) := by
  simp [process, due, h]

theorem process_cons_of_lt (h : f < e.frame) (kb : Keyboard) :
    process f ⟨e :: events⟩ kb = (⟨e :: events⟩, kb) := by
  simp [process, due, h]

theorem process_append {front : List KeyEvent} (h : ∀ e ∈ front, e.frame ≤ f)
    (back : List KeyEvent) (kb : Keyboard) :
    process f ⟨front ++ back⟩ kb = process f ⟨back⟩ (front.foldl KeyEvent.apply kb) := by
  induction front generalizing kb with
  | nil => rfl
  | cons e front ih =>
    obtain ⟨he, hfront⟩ := List.forall_mem_cons.mp h
    exact (process_cons_of_le he kb).trans (ih hfront (e.apply kb))

theorem process_early (h : ∀ e ∈ events, f < e.frame) (kb : Keyboard) :
    process f ⟨events⟩ kb = (⟨events⟩, kb) := by
  cases events with
  | nil => rfl
  | cons e events => exact process_cons_of_lt (h e List.mem_cons_self) kb

/-- To play up to a frame and then up to a later one is to play up to the later one. -/
theorem process_process (h : f ≤ f') (q : KeyQueue) (kb : Keyboard) :
    (q.process f kb).1.process f' (q.process f kb).2 = q.process f' kb := by
  obtain ⟨events⟩ := q
  induction events generalizing kb with
  | nil => rfl
  | cons e events ih =>
    by_cases he : e.frame ≤ f
    · rw [process_cons_of_le he, process_cons_of_le (Nat.le_trans he h)]
      exact ih (e.apply kb)
    · rw [process_cons_of_lt (Nat.lt_of_not_le he)]

end

/-! ## Ordered queues -/

/-- No event stands behind one of a later frame. -/
def Ordered (events : List KeyEvent) : Prop := events.Pairwise (·.frame ≤ ·.frame)

section

variable {events : List KeyEvent} {f : Nat} {e : KeyEvent}

theorem frame_le_of_mem_filter (h : e ∈ events.filter (·.frame ≤ f)) : e.frame ≤ f :=
  of_decide_eq_true (List.mem_filter.mp h).2

theorem lt_frame_of_mem_filter (h : e ∈ events.filter (f < ·.frame)) : f < e.frame :=
  of_decide_eq_true (List.mem_filter.mp h).2

/-- In an ordered queue, the events up to a frame stand in front of the others. -/
theorem filter_append_filter (h : Ordered events) (f : Nat) :
    events.filter (·.frame ≤ f) ++ events.filter (f < ·.frame) = events := by
  induction events with
  | nil => rfl
  | cons e events ih =>
    obtain ⟨hlater, hordered⟩ := List.pairwise_cons.mp h
    by_cases he : e.frame ≤ f
    · rw [List.filter_cons_of_pos (by simpa using he), List.filter_cons_of_neg (by simpa using he),
        List.cons_append, ih hordered]
    · have hall : ∀ d ∈ e :: events, f < d.frame := by
        intro d hd
        rcases List.mem_cons.mp hd with rfl | hd
        · exact Nat.lt_of_not_le he
        · exact Nat.lt_of_lt_of_le (Nat.lt_of_not_le he) (hlater d hd)
      have hnone : (e :: events).filter (·.frame ≤ f) = [] :=
        List.filter_eq_nil_iff.mpr fun d hd => by simpa using hall d hd
      have hself : (e :: events).filter (f < ·.frame) = e :: events :=
        List.filter_eq_self.mpr fun d hd => by simpa using hall d hd
      rw [hnone, hself, List.nil_append]

theorem process_eq (h : Ordered events) (f : Nat) (kb : Keyboard) :
    process f ⟨events⟩ kb =
      (⟨events.filter (f < ·.frame)⟩,
        (events.filter (·.frame ≤ f)).foldl KeyEvent.apply kb) := by
  conv_lhs => rw [← filter_append_filter h f]
  rw [process_append fun e he => frame_le_of_mem_filter he]
  exact process_early (fun e he => lt_frame_of_mem_filter he) _

end

/-! ## Pushing -/

section

variable {events : List KeyEvent} (e : KeyEvent)

/-- An event is put in behind those of its frame. -/
theorem insertEvent_append {front back : List KeyEvent} (hfront : ∀ d ∈ front, d.frame ≤ e.frame)
    (hback : ∀ d ∈ back, e.frame < d.frame) :
    insertEvent e (front ++ back) = front ++ e :: back := by
  induction front with
  | nil =>
    cases back with
    | nil => rfl
    | cons d back => exact if_pos (hback d List.mem_cons_self)
  | cons d front ih =>
    obtain ⟨hd, hfront⟩ := List.forall_mem_cons.mp hfront
    rw [List.cons_append, insertEvent, if_neg (Nat.not_lt.mpr hd), ih hfront, List.cons_append]

theorem insertEvent_eq (h : Ordered events) :
    insertEvent e events =
      events.filter (·.frame ≤ e.frame) ++ e :: events.filter (e.frame < ·.frame) := by
  conv_lhs => rw [← filter_append_filter h e.frame]
  exact insertEvent_append e (fun d hd => frame_le_of_mem_filter hd)
    fun d hd => lt_frame_of_mem_filter hd

theorem Ordered.insertEvent (h : Ordered events) : Ordered (insertEvent e events) := by
  rw [insertEvent_eq e h]
  refine List.pairwise_append.mpr ⟨h.filter _, List.pairwise_cons.mpr ⟨?_, h.filter _⟩, ?_⟩
  · intro d hd
    exact Nat.le_of_lt (lt_frame_of_mem_filter hd)
  · intro d hd d' hd'
    have hle : d.frame ≤ e.frame := frame_le_of_mem_filter hd
    rcases List.mem_cons.mp hd' with rfl | hd'
    · exact hle
    · exact Nat.le_trans hle (Nat.le_of_lt (lt_frame_of_mem_filter hd'))

/-- Among the events of its frame, the event is the last. -/
theorem filter_insertEvent (h : Ordered events) (frame : Nat) :
    (insertEvent e events).filter (·.frame = frame) =
      (events ++ [e]).filter (·.frame = frame) := by
  rw [insertEvent_eq e h, ← List.singleton_append]
  conv_rhs => rw [← filter_append_filter h e.frame]
  simp only [List.filter_append, List.append_assoc]
  congr 1
  by_cases he : e.frame = frame
  · have hnone : (events.filter (e.frame < ·.frame)).filter (·.frame = frame) = [] := by
      refine List.filter_eq_nil_iff.mpr fun d hd => ?_
      have hlater : e.frame < d.frame := lt_frame_of_mem_filter hd
      simp only [decide_eq_true_eq]
      omega
    rw [hnone, List.append_nil, List.nil_append]
  · have hnone : [e].filter (·.frame = frame) = [] := by simp [he]
    rw [hnone, List.append_nil, List.nil_append]

end

end KeyQueue

/-! ## Calls -/

/-- A queue that is played on a keyboard, with the events in the order in which they were applied.
-/
structure Playback where
  queue : KeyQueue := {}
  keyboard : Keyboard
  applied : List KeyEvent := []

namespace Playback

inductive Call
  | push (e : KeyEvent)
  | process (f : Nat)

def Call.event? : Call → Option KeyEvent
  | .push e => some e
  | .process _ => none

/-- The events that calls push, in the order of the calls. -/
def pushed (calls : List Call) : List KeyEvent := calls.filterMap Call.event?

def act (p : Playback) : Call → Playback
  | .push e => { p with queue := p.queue.push e }
  | .process f =>
    { queue := (p.queue.process f p.keyboard).1
      keyboard := (p.queue.process f p.keyboard).2
      applied := p.applied ++ p.queue.events.filter (·.frame ≤ f) }

def run (kb : Keyboard) (calls : List Call) : Playback := calls.foldl act { keyboard := kb }

/-- The queue is ordered, and nothing that was pushed is lost, brought out of its order or applied
twice. -/
structure Faithful (kb : Keyboard) (pushed : List KeyEvent) (p : Playback) : Prop where
  ordered : KeyQueue.Ordered p.queue.events
  stable (frame : Nat) :
    (p.applied ++ p.queue.events).filter (·.frame = frame) = pushed.filter (·.frame = frame)
  keyboard : p.keyboard = p.applied.foldl KeyEvent.apply kb

namespace Faithful

variable {kb : Keyboard} {events : List KeyEvent} {p : Playback} (h : p.Faithful kb events)

include h

theorem push (e : KeyEvent) : (p.act (.push e)).Faithful kb (events ++ [e]) where
  ordered := h.ordered.insertEvent e
  stable frame := by
    have hstable := h.stable frame
    rw [List.filter_append] at hstable
    show (p.applied ++ KeyQueue.insertEvent e p.queue.events).filter _ = _
    rw [List.filter_append, KeyQueue.filter_insertEvent e h.ordered, List.filter_append,
      List.filter_append, ← List.append_assoc, hstable]
  keyboard := h.keyboard

theorem process (f : Nat) : (p.act (.process f)).Faithful kb events := by
  have hprocess := KeyQueue.process_eq h.ordered f p.keyboard
  constructor
  case ordered =>
    show KeyQueue.Ordered (p.queue.process f p.keyboard).1.events
    rw [hprocess]
    exact h.ordered.filter _
  case stable =>
    intro frame
    show (p.applied ++ p.queue.events.filter (·.frame ≤ f) ++
      (p.queue.process f p.keyboard).1.events).filter _ = _
    rw [hprocess, List.append_assoc, KeyQueue.filter_append_filter h.ordered]
    exact h.stable frame
  case keyboard =>
    show (p.queue.process f p.keyboard).2 =
      (p.applied ++ p.queue.events.filter (·.frame ≤ f)).foldl KeyEvent.apply kb
    rw [hprocess, List.foldl_append, ← h.keyboard]

theorem perm : (p.applied ++ p.queue.events).Perm events := by
  refine List.perm_iff_count.mpr fun e => ?_
  have hcount (l : List KeyEvent) : (l.filter (·.frame = e.frame)).count e = l.count e :=
    List.count_filter (decide_eq_true rfl)
  rw [← hcount, h.stable e.frame, hcount]

end Faithful

theorem faithful_run (kb : Keyboard) (calls : List Call) :
    (run kb calls).Faithful kb (pushed calls) := by
  induction calls using List.reverseRecOn with
  | nil => exact ⟨.nil, fun _ => rfl, rfl⟩
  | append_singleton calls call ih =>
    rw [pushed, List.filterMap_append, run, List.foldl_append]
    cases call with
    | push e => exact ih.push e
    | process f =>
      rw [show [Call.process f].filterMap Call.event? = [] from rfl, List.append_nil]
      exact ih.process f

/-- Whatever calls have been made, the queue is in the order of the frames, and the events of a
frame are in the order in which they were pushed; none of them is lost, and none is applied twice.
To play up to a frame applies the events that are due, in the order of the queue, and keeps the
others; and to play up to an earlier frame first makes no difference. -/
theorem stable_run (kb : Keyboard) (calls : List Call) :
    let p := run kb calls
    p.queue.events.Pairwise (·.frame ≤ ·.frame) ∧
    (∀ frame, (p.applied ++ p.queue.events).filter (·.frame = frame) =
      (pushed calls).filter (·.frame = frame)) ∧
    (p.applied ++ p.queue.events).Perm (pushed calls) ∧
    p.keyboard = p.applied.foldl KeyEvent.apply kb ∧
    (∀ f kb', p.queue.process f kb' =
      (⟨p.queue.events.filter (f < ·.frame)⟩,
        (p.queue.events.filter (·.frame ≤ f)).foldl KeyEvent.apply kb')) ∧
    ∀ f f', f ≤ f' → ∀ kb', (p.queue.process f kb').1.process f' (p.queue.process f kb').2 =
      p.queue.process f' kb' := by
  intro p
  have h : p.Faithful kb (pushed calls) := faithful_run kb calls
  exact ⟨h.ordered, h.stable, h.perm, h.keyboard, fun f kb' => KeyQueue.process_eq h.ordered f kb',
    fun f f' hf kb' => KeyQueue.process_process hf p.queue kb'⟩

/-- A is pressed and released at one frame, and SHIFT is released for a frame that has passed. -/
def playedCalls : List Call :=
  [.push ⟨5, .a, true⟩, .push ⟨3, .shift, true⟩, .push ⟨5, .a, false⟩, .process 4,
    .push ⟨2, .shift, false⟩, .push ⟨5, .b, true⟩]

theorem stable_run_played :
    let p := run {} playedCalls
    p.applied = [⟨3, .shift, true⟩] ∧
      p.queue.events = [⟨2, .shift, false⟩, ⟨5, .a, true⟩, ⟨5, .a, false⟩, ⟨5, .b, true⟩] ∧
      (p.applied ++ p.queue.events).Perm (pushed playedCalls) ∧ 2 ≤ 5 ∧
      (p.queue.process 2 p.keyboard).1.process 5 (p.queue.process 2 p.keyboard).2 =
        (⟨[]⟩, ({} : Keyboard).press .b) := by
  obtain ⟨-, -, hperm, -, -, hprocess⟩ := stable_run {} playedCalls
  exact ⟨rfl, rfl, hperm, by decide, (hprocess 2 5 (by decide) _).trans rfl⟩

end Playback

end AmstradCpc
