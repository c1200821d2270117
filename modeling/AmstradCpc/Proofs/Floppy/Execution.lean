import AmstradCpc.Floppy.Controller

/-!
# Where carrying out a command leads

A command leaves the controller idle, waiting for data, or with something to be read
(`Controller.settled_execute`). After a write whose data has come there is something to be read
(`Controller.readable_commit`).
-/

namespace AmstradCpc.Floppy

namespace Phase

/-- The data register has something to show, and the controller is idle when it has been shown. -/
def Readable : Phase → Prop
  | .executionRead data bytes => data ≠ [] ∧ bytes ≠ []
  | .result bytes => bytes ≠ []
  | _ => False

/-- A phase that a command or a write can leave the controller in: nothing that is to be read is
empty, and no data of a write has come. -/
def Settled : Phase → Prop
  | .idle => True
  | .command _ => False
  | .executionRead data bytes => data ≠ [] ∧ bytes ≠ []
  | .executionWrite _ _ received => received = #[]
  | .result bytes => bytes ≠ []

theorem Readable.settled {phase : Phase} (h : phase.Readable) : phase.Settled := by
  cases phase with
  | executionRead | result => exact h
  | idle | command | executionWrite => exact h.elim

end Phase

namespace Controller

theorem readable_finishTransfer (st0 st1 : UInt8) (id : SectorId) (c : Controller) :
    (c.finishTransfer st0 st1 id).phase.Readable := List.cons_ne_nil _ _

theorem readable_senseDriveStatus (unit : UInt8) (c : Controller) :
    (c.senseDriveStatus unit).phase.Readable := by
  unfold senseDriveStatus
  dsimp only
  split <;> exact List.cons_ne_nil _ _

theorem readable_senseInterruptStatus (c : Controller) :
    c.senseInterruptStatus.phase.Readable := by
  unfold senseInterruptStatus
  split <;> exact List.cons_ne_nil _ _

theorem readable_readId (u : Unit) (c : Controller) : (c.readId u).phase.Readable := by
  unfold readId
  dsimp only
  split
  · exact readable_finishTransfer _ _ _ c
  · split <;> exact readable_finishTransfer _ _ _ _

theorem readable_readData (deleted : Bool) (tr : Transfer) (c : Controller) :
    (c.readData deleted tr).phase.Readable := by
  unfold readData
  dsimp only
  split
  · exact readable_finishTransfer _ _ _ c
  · split
    · exact readable_finishTransfer _ _ _ c
    · split
      · exact List.cons_ne_nil _ _
      · rename_i hdata
        exact ⟨mt List.isEmpty_iff.mpr hdata, List.cons_ne_nil _ _⟩

theorem settled_writeData (tr : Transfer) (c : Controller) : (c.writeData tr).phase.Settled := by
  unfold writeData
  dsimp only
  split
  · exact (readable_finishTransfer _ _ _ c).settled
  · split
    · exact (readable_finishTransfer _ _ _ c).settled
    · split
      · exact (readable_finishTransfer _ _ _ c).settled
      · split
        · exact (readable_finishTransfer _ _ _ c).settled
        · rfl

theorem settled_formatTrack (bytes : List UInt8) (c : Controller) :
    (c.formatTrack bytes).phase.Settled := by
  unfold formatTrack
  dsimp only
  split
  · exact (readable_finishTransfer _ _ _ c).settled
  · split
    · exact (readable_finishTransfer _ _ _ c).settled
    · split
      · exact (readable_finishTransfer _ _ _ c).settled
      · rfl

theorem settled_execute (bytes : List UInt8) (c : Controller) :
    (c.execute bytes).phase.Settled := by
  unfold execute
  dsimp only
  split
  · trivial
  · exact (c.readable_senseDriveStatus _).settled
  · trivial
  · trivial
  · exact c.readable_senseInterruptStatus.settled
  · exact (c.readable_readData _ _).settled
  · exact (c.readable_readData _ _).settled
  · exact c.settled_writeData _
  · exact (c.readable_readId _).settled
  · exact c.settled_formatTrack bytes
  · exact List.cons_ne_nil _ _

theorem readable_commit (pending : PendingWrite) (bytes : List UInt8) (c : Controller) :
    (c.commit pending bytes).phase.Readable := by
  unfold commit
  split
  · dsimp only
    split <;> exact readable_finishTransfer _ _ _ _
  · exact readable_finishTransfer _ _ _ _

end Controller

end AmstradCpc.Floppy
