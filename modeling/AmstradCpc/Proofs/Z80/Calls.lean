import AmstradCpc.Proofs.Z80.Frame

/-!
# The calls of a run

A run is a sequence of calls on the bus: reads, writes, inputs, outputs, acknowledge cycles and
polls. `Traced` is a bus that writes its calls down. Leaving the list out again gives the plain run
(`System.runPeriod_erase`), and the bus is always the first one after the calls written down
(`Traced.From.call`).
-/

namespace AmstradCpc.Z80

/-- A call on the bus. -/
inductive BusCall
  | read (a : UInt16)
  | write (a : UInt16) (v : UInt8)
  | input (port : UInt16)
  | output (port : UInt16) (v : UInt8)
  | acknowledge
  | poll
  deriving DecidableEq, Repr

section Replay

variable {β : Type} [Bus β] [InterruptSource β]

/-- The bus after a call. What the call answers is left out. -/
def BusCall.apply (b : β) : BusCall → β
  | .read a => (Bus.read a b).2
  | .write a v => Bus.write a v b
  | .input port => (Bus.input port b).2
  | .output port v => Bus.output port v b
  | .acknowledge => (Bus.acknowledge b).2
  | .poll => (InterruptSource.poll b).2

/-- The bus after some calls. -/
def replay (calls : List BusCall) (b : β) : β := calls.foldl BusCall.apply b

@[simp] theorem replay_nil (b : β) : replay [] b = b := rfl

@[simp] theorem replay_cons (c : BusCall) (calls : List BusCall) (b : β) :
    replay (c :: calls) b = replay calls (c.apply b) := rfl

theorem replay_append (calls later : List BusCall) (b : β) :
    replay (calls ++ later) b = replay later (replay calls b) :=
  List.foldl_append

theorem replay_concat (calls : List BusCall) (c : BusCall) (b : β) :
    replay (calls ++ [c]) b = c.apply (replay calls b) :=
  replay_append calls [c] b

-- What every call keeps, any calls keep.
theorem replay_keeps {P : β → Prop} (h : ∀ (c : BusCall) (b : β), P b → P (c.apply b))
    (calls : List BusCall) {b : β} (hb : P b) : P (replay calls b) :=
  List.foldlRecOn calls BusCall.apply hb fun b hb c _ => h c b hb

end Replay

/-! ## A bus that writes its calls down -/

/-- A bus with the calls made on it, in their order. -/
structure Traced (β : Type) where
  bus : β
  calls : List BusCall := []

namespace Traced

variable {β : Type} [Bus β] [InterruptSource β]

/-- Makes a call and writes it down. -/
def call (c : BusCall) (t : Traced β) : Traced β :=
  { bus := c.apply t.bus, calls := t.calls ++ [c] }

instance : Bus (Traced β) where
  read a t := ((Bus.read a t.bus).1, t.call (.read a))
  write a v t := t.call (.write a v)
  input port t := ((Bus.input port t.bus).1, t.call (.input port))
  output port v t := t.call (.output port v)
  acknowledge t := ((Bus.acknowledge t.bus).1, t.call .acknowledge)

instance : InterruptSource (Traced β) where
  poll t := ((InterruptSource.poll t.bus).1, t.call .poll)

/-- The calls are written down on the side. -/
instance : BusHom (Traced.bus : Traced β → β) where
  read _ _ := rfl
  write _ _ _ := rfl
  input _ _ := rfl
  output _ _ _ := rfl
  acknowledge _ := rfl

-- What every call keeps but an acknowledge or a poll, the accesses of instructions keep.
theorem accessKeeps {P : Traced β → Prop}
    (h : ∀ c t, c ≠ .acknowledge → c ≠ .poll → P t → P (t.call c)) : System.AccessKeeps P where
  read a t := h (.read a) t (by simp) (by simp)
  write a v t := h (.write a v) t (by simp) (by simp)
  input port t := h (.input port) t (by simp) (by simp)
  output port v t := h (.output port v) t (by simp) (by simp)

/-- The bus is the first one after the calls. -/
def From (b : β) (t : Traced β) : Prop := t.bus = replay t.calls b

theorem From.call {b : β} {t : Traced β} (h : t.From b) (c : BusCall) : (t.call c).From b := by
  show c.apply t.bus = replay (t.calls ++ [c]) b
  rw [replay_concat, ← h]

theorem prefix_call (c : BusCall) (t : Traced β) : t.calls <+: (t.call c).calls :=
  List.prefix_append _ _

end Traced

/-! ## Runs of one period -/

namespace System

variable {β : Type} [Bus β] [InterruptSource β]

-- What every call keeps holds after a period once it holds behind the first step.
theorem runPeriod_keeps_of_step {P : Traced β → Prop} (h : ∀ c t, P t → P (t.call c))
    (s : System (Traced β)) (hs : P s.step.2.bus) : P s.runPeriod.2.bus := by
  have haccess : AccessKeeps P := Traced.accessKeeps fun c t _ _ => h c t
  have hstep (r : System (Traced β)) (hr : P r.bus) : P r.step.2.bus :=
    step_keeps haccess (fun t => h .acknowledge t) r hr
  exact h .poll _ (runFor_keeps_of_step (P := fun r => P r.bus) hstep _ _ s hs)

-- A period of the CPU keeps what every call keeps.
theorem runPeriod_keeps {P : Traced β → Prop} (h : ∀ c t, P t → P (t.call c))
    (s : System (Traced β)) (hs : P s.bus) : P s.runPeriod.2.bus := by
  have haccess : AccessKeeps P := Traced.accessKeeps fun c t _ _ => h c t
  exact runPeriod_keeps_of_step h s (step_keeps haccess (fun t => h .acknowledge t) s hs)

theorem runPeriod_erase (s : System (Traced β)) :
    s.runPeriod.2.map Traced.bus = (s.map Traced.bus).runPeriod.2 := by
  rw [runPeriod_map Traced.bus s fun _ => rfl]

end System

end AmstradCpc.Z80
