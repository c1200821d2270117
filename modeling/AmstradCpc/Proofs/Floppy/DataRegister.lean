import AmstradCpc.Floppy.Controller

/-!
# Streams through the data register

The host writes and reads the data register a byte at a time. A command that is sent whole to an
idle controller is carried out (`Controller.send_command`), the data it then waits for is committed
(`Controller.send_data`), and what it has to say is read to its last byte, the data first and then
the result (`Controller.receive_executionRead`).
-/

namespace AmstradCpc.Floppy

theorem parameter_append {bytes : List UInt8} {i : Nat} (h : i < bytes.length)
    (rest : List UInt8) : parameter (bytes ++ rest) i = parameter bytes i := by
  unfold parameter
  rw [List.getD_eq_getElem?_getD, List.getD_eq_getElem?_getD, List.getElem?_append_left h]

theorem getElem?_eq_parameter {bytes : List UInt8} {i : Nat} (h : i < bytes.length) :
    bytes[i]? = some (parameter bytes i) := by
  unfold parameter
  rw [List.getD_eq_getElem?_getD, List.getElem?_eq_getElem h]
  rfl

theorem Command.length_pos (command : Command) : 0 < command.length := by
  cases command <;> decide

namespace Controller

/-- Writes some bytes, one after another. -/
def send (bytes : List UInt8) (c : Controller) : Controller := bytes.foldl (fun c v => c.write v) c

/-- Reads some bytes. -/
def receive : Nat → Controller → List UInt8 × Controller
  | 0, c => ([], c)
  | n + 1, c => (c.read.1 :: (receive n c.read.2).1, (receive n c.read.2).2)

theorem receive_add (m n : Nat) (c : Controller) :
    c.receive (m + n) =
      ((c.receive m).1 ++ ((c.receive m).2.receive n).1, ((c.receive m).2.receive n).2) := by
  induction m generalizing c with
  | zero =>
    rw [Nat.zero_add]
    rfl
  | succ m ih =>
    rw [Nat.succ_add]
    show (c.read.1 :: (receive (m + n) c.read.2).1, (receive (m + n) c.read.2).2) = _
    rw [ih]
    rfl

theorem with_idle {c : Controller} (h : c.phase = .idle) : { c with phase := .idle } = c := by
  rw [← h]

theorem phase_setDrive (n : DriveNumber) (d : Drive) (c : Controller) :
    (c.setDrive n d).phase = c.phase := by
  cases n <;> rfl

/-! ## One byte -/

section Byte

variable {c : Controller}

theorem write_idle (h : c.phase = .idle) (v : UInt8) :
    c.write v = collect [v] { c with phase := .idle } := by
  unfold write
  rw [h]

theorem write_command {bytes : List UInt8} (h : c.phase = .command bytes) (v : UInt8) :
    c.write v = collect (bytes ++ [v]) { c with phase := .idle } := by
  unfold write
  rw [h]

theorem write_executionWrite {pending : PendingWrite} {expected : Nat} {received : Array UInt8}
    (h : c.phase = .executionWrite pending expected received) (v : UInt8) :
    c.write v =
      if received.size + 1 < expected then
        { c with phase := .executionWrite pending expected (received.push v) }
      else commit pending (received.toList ++ [v]) { c with phase := .idle } := by
  unfold write
  rw [h]
  dsimp only
  rw [Array.size_push, Array.toList_push]

theorem write_executionRead {data result : List UInt8} (h : c.phase = .executionRead data result)
    (v : UInt8) : c.write v = c := by
  unfold write
  rw [h]
  show { c with phase := .executionRead data result } = c
  rw [← h]

theorem write_result {bytes : List UInt8} (h : c.phase = .result bytes) (v : UInt8) :
    c.write v = c := by
  unfold write
  rw [h]
  show { c with phase := .result bytes } = c
  rw [← h]

theorem read_executionRead {v : UInt8} {data result : List UInt8}
    (h : c.phase = .executionRead (v :: data) result) :
    c.read = (v, { c with
      phase := if data.isEmpty then .result result else .executionRead data result }) := by
  unfold read
  rw [h]

theorem read_result {v : UInt8} {bytes : List UInt8} (h : c.phase = .result (v :: bytes)) :
    c.read = (v, { c with phase := if bytes.isEmpty then .idle else .result bytes }) := by
  unfold read
  rw [h]

theorem read_idle (h : c.phase = .idle) : c.read = (0xFF, c) := by
  unfold read
  rw [h]

theorem read_command {bytes : List UInt8} (h : c.phase = .command bytes) : c.read = (0xFF, c) := by
  unfold read
  rw [h]

theorem read_executionWrite {pending : PendingWrite} {expected : Nat} {received : Array UInt8}
    (h : c.phase = .executionWrite pending expected received) : c.read = (0xFF, c) := by
  unfold read
  rw [h]

end Byte

/-! ## Sending -/

-- The induction is over the bytes that are still to come.
theorem send_rest {c : Controller} {bytes rest : List UInt8} (h : c.phase = .command bytes)
    (hbytes : 0 < bytes.length) (hrest : 0 < rest.length)
    (hlength : bytes.length + rest.length = (Command.decode (parameter bytes 0)).length) :
    c.send rest = execute (bytes ++ rest) { c with phase := .idle } := by
  induction rest generalizing c bytes with
  | nil => exact absurd hrest (Nat.lt_irrefl 0)
  | cons v rest ih =>
    have hop := parameter_append hbytes [v]
    have hsize : (bytes ++ [v]).length = bytes.length + 1 := List.length_append
    rw [List.length_cons] at hlength
    show (c.write v).send rest = _
    rw [write_command h, collect, hop, hsize]
    cases rest with
    | nil =>
      rw [List.length_nil] at hlength
      rw [if_neg (by omega)]
      rfl
    | cons w rest =>
      rw [List.length_cons] at hlength ih
      rw [if_pos (by omega), ih rfl (by omega) (by omega) (by rw [hop]; omega), List.append_assoc]
      rfl

theorem send_command {c : Controller} (h : c.phase = .idle) {op : UInt8} {bytes : List UInt8}
    (hlength : 1 + bytes.length = (Command.decode op).length) :
    c.send (op :: bytes) = c.execute (op :: bytes) := by
  have hop : parameter [op] 0 = op := rfl
  have hsize : [op].length = 1 := rfl
  show (c.write op).send bytes = _
  rw [write_idle h, collect, hop, hsize]
  cases bytes with
  | nil =>
    rw [List.length_nil] at hlength
    rw [if_neg (by omega)]
    show execute [op] { c with phase := .idle } = _
    rw [with_idle h]
  | cons v bytes =>
    have hphase : ({ c with phase := .command [op] } : Controller).phase = .command [op] := rfl
    have hone : 0 < [op].length := Nat.one_pos
    have hrest : 0 < (v :: bytes).length := Nat.succ_pos bytes.length
    rw [if_pos (by rw [← hlength, List.length_cons]; omega), send_rest hphase hone hrest hlength]
    show execute (op :: v :: bytes) { c with phase := .idle } = _
    rw [with_idle h]

theorem send_data {c : Controller} {pending : PendingWrite} {expected : Nat}
    {received : Array UInt8} (h : c.phase = .executionWrite pending expected received)
    {bytes : List UInt8} (hbytes : 0 < bytes.length)
    (hlength : received.size + bytes.length = expected) :
    c.send bytes = commit pending (received.toList ++ bytes) { c with phase := .idle } := by
  induction bytes generalizing c received with
  | nil => exact absurd hbytes (Nat.lt_irrefl 0)
  | cons v bytes ih =>
    have hpush : (received.push v).size = received.size + 1 := Array.size_push v
    rw [List.length_cons] at hlength
    show (c.write v).send bytes = _
    rw [write_executionWrite h]
    cases bytes with
    | nil =>
      rw [List.length_nil] at hlength
      rw [if_neg (by omega)]
      rfl
    | cons w bytes =>
      rw [List.length_cons] at hlength ih
      rw [if_pos (by omega), ih rfl (by omega) (by omega), Array.toList_push, List.append_assoc]
      rfl

/-! ## Receiving -/

theorem receive_result {c : Controller} {bytes : List UInt8} (h : c.phase = .result bytes)
    (hbytes : bytes ≠ []) : c.receive bytes.length = (bytes, { c with phase := .idle }) := by
  induction bytes generalizing c with
  | nil => exact absurd rfl hbytes
  | cons v bytes ih =>
    rw [List.length_cons, receive, read_result h]
    cases bytes with
    | nil => rfl
    | cons w bytes => rw [ih rfl (List.cons_ne_nil w bytes)]

theorem receive_data {c : Controller} {data result : List UInt8}
    (h : c.phase = .executionRead data result) (hdata : data ≠ []) :
    c.receive data.length = (data, { c with phase := .result result }) := by
  induction data generalizing c with
  | nil => exact absurd rfl hdata
  | cons v data ih =>
    rw [List.length_cons, receive, read_executionRead h]
    cases data with
    | nil => rfl
    | cons w data => rw [ih rfl (List.cons_ne_nil w data)]

theorem receive_executionRead {c : Controller} {data result : List UInt8}
    (h : c.phase = .executionRead data result) (hdata : data ≠ []) (hresult : result ≠ []) :
    c.receive (data ++ result).length = (data ++ result, { c with phase := .idle }) := by
  rw [List.length_append, receive_add, receive_data h hdata, receive_result rfl hresult]

end Controller

end AmstradCpc.Floppy
