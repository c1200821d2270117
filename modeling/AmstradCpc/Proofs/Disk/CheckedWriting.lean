import AmstradCpc.Proofs.Disk.CheckedReading

/-!
# Writing an image with every look-up checked

The block about a disk and the headers of its tracks are 256 zeros each, and what they say is stored
over those. `Disk.toBytes?` stores field by field and has no answer when one lies out of range. Of a
disk within the bounds of an image (`Disk.Bounded`) none does (`Disk.Bounded.toBytes?_eq`); a disk of
more tracks than the table has room for cannot be written (`Disk.toBytes?_eq_none`).
-/

namespace AmstradCpc

/-! ## Fields in zeros -/

theorem padTo_of_length_le {n : Nat} {bs : List UInt8} (h : n ≤ bs.length) : padTo n bs = bs := by
  rw [padTo, Nat.sub_eq_zero_of_le h]
  exact List.append_nil bs

section Padded

variable {size start : Nat} {front : List UInt8}

theorem padTo_padTo (h : start ≤ size) (front : List UInt8) :
    padTo size (padTo start front) = padTo size front := by
  unfold padTo
  rw [List.append_assoc, List.replicate_append_replicate, List.length_append, List.length_replicate]
  congr 2
  omega

variable (hfront : front.length ≤ start)

include hfront

-- What lies between the fields so far and the new one stays zero.
theorem copy?_padTo {part : List UInt8} (hsize : start + part.length ≤ size) :
    copy? (padTo size front) start (start + part.length) part =
      some (padTo size (padTo start front ++ part)) := by
  have hlength : (padTo size front).length = size := by
    rw [length_padTo]
    omega
  have htake : (padTo size front).take start = padTo start front := by
    unfold padTo
    rw [List.take_append, List.take_of_length_le hfront, List.take_replicate]
    congr 2
    omega
  have hdrop : (padTo size front).drop (start + part.length) =
      List.replicate (size - (start + part.length)) 0 := by
    unfold padTo
    rw [List.drop_append, List.drop_eq_nil_of_le (by omega), List.nil_append, List.drop_replicate]
    congr 1
    omega
  have hnew : (padTo start front ++ part).length = start + part.length := by
    rw [List.length_append, length_padTo, Nat.max_eq_left hfront]
  rw [copy?_eq (by omega) rfl, htake, hdrop, ← hnew]
  rfl

theorem store?_padTo (hsize : start < size) (v : UInt8) :
    store? (padTo size front) start v = some (padTo size (padTo start front ++ [v])) := by
  have hlength : start < (padTo size front).length := by
    rw [length_padTo]
    omega
  have hpart : start + [v].length ≤ size := hsize
  rw [← copy?_padTo hfront hpart, store?_eq hlength,
    copy?_eq (show start + [v].length ≤ (padTo size front).length from hlength) rfl,
    List.set_eq_take_append_cons_drop, if_pos hlength, List.append_assoc]
  rfl

theorem slice?_padTo {n : Nat} (hsize : start + n ≤ size) :
    slice? (padTo size front) start (start + n) = some (List.replicate n 0) := by
  have hlength : start + n ≤ (padTo size front).length := by
    rw [length_padTo]
    omega
  rw [slice?_eq (Nat.le_add_right start n) hlength]
  unfold padTo
  rw [List.drop_take, Nat.add_sub_cancel_left, List.drop_append, List.drop_eq_nil_of_le hfront,
    List.nil_append, List.drop_replicate, List.take_replicate]
  congr 2
  omega

end Padded

theorem copy?_zeros {size : Nat} {part : List UInt8} (hsize : part.length ≤ size) :
    copy? (List.replicate size 0) 0 part.length part = some (padTo size part) := by
  have hnil : ([] : List UInt8).length ≤ 0 := Nat.le_refl 0
  have hcopy := copy?_padTo hnil (by rwa [Nat.zero_add] : 0 + part.length ≤ size)
  rwa [Nat.zero_add] at hcopy

/-- Stores entries one by one from `start` on. -/
def storeFrom? (bytes : List UInt8) (start : Nat) : List UInt8 → Option (List UInt8)
  | [] => some bytes
  | v :: vs => do storeFrom? (← store? bytes start v) (start + 1) vs

theorem storeFrom?_padTo {size start : Nat} {front vs : List UInt8} (hfront : front.length ≤ start)
    (hsize : start + vs.length ≤ size) :
    storeFrom? (padTo size front) start vs = some (padTo size (padTo start front ++ vs)) := by
  induction vs generalizing start front with
  | nil => rw [storeFrom?, List.append_nil, padTo_padTo (by simpa using hsize)]
  | cons v vs ih =>
    rw [List.length_cons] at hsize
    have hlength : (padTo start front ++ [v]).length = start + 1 := by
      rw [List.length_append, length_padTo, Nat.max_eq_left hfront]
      rfl
    have hnext := ih (Nat.le_of_eq hlength) (by omega)
    rw [storeFrom?, store?_padTo hfront (by omega)]
    refine hnext.trans ?_
    rw [padTo_of_length_le (Nat.le_of_eq hlength.symm), List.append_assoc]
    rfl

theorem storeFrom?_eq_none {bytes vs : List UInt8} {start : Nat} (hstart : start ≤ bytes.length)
    (hvs : bytes.length < start + vs.length) : storeFrom? bytes start vs = none := by
  induction vs generalizing bytes start with
  | nil => exact absurd hvs (Nat.not_lt.mpr hstart)
  | cons v vs ih =>
    rw [List.length_cons] at hvs
    unfold storeFrom?
    by_cases hroom : start < bytes.length
    · rw [store?_eq hroom]
      refine ih ?_ ?_ <;> rw [List.length_set] <;> omega
    · rw [store?, if_neg hroom]
      rfl

namespace DiskImage

/-! ## The block of a track -/

/-- Writes the descriptor of sector `s` of a track. -/
def putDescriptor? (extended : Bool) (block : List UInt8) (s : Nat) (sector : Sector) :
    Option (List UInt8) := do
  let info ← slice? block (0x18 + s * 8) (0x20 + s * 8)
  let info ← storeFrom? info 0
    [sector.id.c, sector.id.h, sector.id.r, sector.id.n, sector.st1, sector.st2]
  let info ← if extended then copy? info 6 8 (littleEndian sector.data.length) else some info
  copy? block (0x18 + s * 8) (0x20 + s * 8) info

/-- Writes the descriptors of sectors from sector `s` on. -/
def putDescriptors? (extended : Bool) (block : List UInt8) : Nat → List Sector → Option (List UInt8)
  | _, [] => some block
  | s, sector :: sectors => do
    putDescriptors? extended (← putDescriptor? extended block s sector) (s + 1) sectors

/-- Writes what comes before the descriptors. -/
def trackFields? (cylinder side : Nat) (t : Track) : Option (List UInt8) := do
  let block ← copy? (List.replicate blockSize 0) 0 trackHeader.length trackHeader
  let block ← storeFrom? block 0x10 [cylinder.toUInt8, side.toUInt8]
  storeFrom? block 0x14 [t.sizeCode, t.sectors.length.toUInt8, t.gap3, t.filler]

def trackBlock? (extended : Bool) (cylinder side : Nat) (t : Track) : Option (List UInt8) := do
  let block ← trackFields? cylinder side t
  let block ← putDescriptors? extended block 0 t.sectors
  return padToBlock (block ++ t.sectors.flatMap (·.data))

theorem length_descriptor (extended : Bool) (s : Sector) : (descriptor extended s).length = 8 := by
  cases extended <;> rfl

theorem putDescriptor?_padTo (extended : Bool) {front : List UInt8} {s : Nat}
    (hfront : front.length = 0x18 + s * 8) (hs : s < Disk.maxSectors) (sector : Sector) :
    putDescriptor? extended (padTo blockSize front) s sector =
      some (padTo blockSize (front ++ descriptor extended sector)) := by
  have hroom : 0x18 + s * 8 + 8 ≤ blockSize := by
    unfold Disk.maxSectors at hs
    unfold blockSize
    omega
  have hstop : 0x20 + s * 8 = 0x18 + s * 8 + 8 := by omega
  have hcopy := copy?_padTo (Nat.le_of_eq hfront)
    (by rwa [length_descriptor] : 0x18 + s * 8 + (descriptor extended sector).length ≤ blockSize)
  rw [length_descriptor, padTo_of_length_le (Nat.le_of_eq hfront.symm)] at hcopy
  unfold putDescriptor?
  rw [hstop, slice?_padTo (Nat.le_of_eq hfront) hroom]
  refine Eq.trans ?_ hcopy
  cases extended <;> rfl

theorem putDescriptors?_padTo (extended : Bool) {front : List UInt8} {s : Nat}
    (hfront : front.length = 0x18 + s * 8) {sectors : List Sector}
    (hsectors : s + sectors.length ≤ Disk.maxSectors) :
    putDescriptors? extended (padTo blockSize front) s sectors =
      some (padTo blockSize (front ++ sectors.flatMap (descriptor extended))) := by
  induction sectors generalizing front s with
  | nil =>
    rw [List.flatMap_nil, List.append_nil]
    rfl
  | cons sector sectors ih =>
    rw [List.length_cons] at hsectors
    have hnext : (front ++ descriptor extended sector).length = 0x18 + (s + 1) * 8 := by
      rw [List.length_append, length_descriptor]
      omega
    rw [putDescriptors?, putDescriptor?_padTo extended hfront (by omega)]
    refine (ih hnext (by omega)).trans ?_
    rw [List.append_assoc, List.flatMap_cons]

theorem trackFields?_eq (cylinder side : Nat) (t : Track) :
    trackFields? cylinder side t = some (padTo blockSize (padTo 0x10 trackHeader ++
      [cylinder.toUInt8, side.toUInt8, 0, 0, t.sizeCode, t.sectors.length.toUInt8, t.gap3,
        t.filler])) := by
  have hheader : (padTo 0x10 trackHeader).length = 0x10 := by
    rw [trackHeader_eq]
    rfl
  have hplace := @storeFrom?_padTo blockSize 0x10 trackHeader [cylinder.toUInt8, side.toUInt8]
    (by decide) (show 0x12 ≤ 0x100 by decide)
  have hlayout := @storeFrom?_padTo blockSize 0x14
    (padTo 0x10 trackHeader ++ [cylinder.toUInt8, side.toUInt8])
    [t.sizeCode, t.sectors.length.toUInt8, t.gap3, t.filler]
    (by rw [List.length_append, hheader]; exact (by decide : 0x12 ≤ 0x14))
    (show 0x18 ≤ 0x100 by decide)
  unfold trackFields?
  rw [copy?_zeros (by decide), Option.bind_eq_bind, Option.bind_some, hplace, Option.bind_some,
    hlayout, trackHeader_eq]
  rfl

theorem trackBlock?_eq (extended : Bool) (cylinder side : Nat) {t : Track}
    (ht : t.sectors.length ≤ Disk.maxSectors) :
    trackBlock? extended cylinder side t = some (trackBlock extended cylinder side t) := by
  have hlength : (padTo 0x10 trackHeader ++ [cylinder.toUInt8, side.toUInt8, 0, 0, t.sizeCode,
      t.sectors.length.toUInt8, t.gap3, t.filler]).length = 0x18 + 0 * 8 := by
    rw [trackHeader_eq]
    rfl
  unfold trackBlock?
  rw [trackFields?_eq]
  show Option.bind (putDescriptors? extended (padTo blockSize _) 0 t.sectors) _ = _
  rw [putDescriptors?_padTo extended hlength (by rwa [Nat.zero_add])]
  rfl

/-! ## The image -/

/-- Writes the blocks of tracks from track `i` on. Without sides there is no place to write. -/
def blocksFrom? (extended : Bool) (sides : Nat) :
    Nat → List (Option Track) → Option (List (Option (List UInt8)))
  | _, [] => some []
  | i, none :: tracks => do return none :: (← blocksFrom? extended sides (i + 1) tracks)
  | i, some t :: tracks =>
    if sides = 0 then none
    else do
      let block ← trackBlock? extended (i / sides) (i % sides) t
      return some block :: (← blocksFrom? extended sides (i + 1) tracks)

/-- Writes what comes before the fields of either flavour. -/
def diskFields? (d : Disk) : Option (List UInt8) := do
  let signature := if d.extended then extendedHeader else standardHeader
  let header ← copy? (List.replicate blockSize 0) 0 signature.length signature
  let header ← copy? header 0x22 (0x22 + creator.length) creator
  storeFrom? header 0x30 [d.cylinders.toUInt8, d.sides.toUInt8]

theorem blocksFrom?_eq (extended : Bool) {sides : Nat} (hsides : 0 < sides)
    {tracks : List (Option Track)}
    (htracks : ∀ t, some t ∈ tracks → t.sectors.length ≤ Disk.maxSectors) (i : Nat) :
    blocksFrom? extended sides i tracks = some (tracks.mapIdx fun k t =>
      t.map (trackBlock extended ((i + k) / sides) ((i + k) % sides))) := by
  induction tracks generalizing i with
  | nil => rfl
  | cons o tracks ih =>
    have hlater := ih (fun t ht => htracks t (List.mem_cons_of_mem _ ht)) (i + 1)
    simp only [Nat.add_right_comm i 1, Nat.add_assoc i _ 1] at hlater
    rw [List.mapIdx_cons, Nat.add_zero]
    cases o with
    | none =>
      rw [blocksFrom?, hlater]
      rfl
    | some t =>
      rw [blocksFrom?, if_neg (Nat.ne_of_gt hsides),
        trackBlock?_eq extended _ _ (htracks t List.mem_cons_self), hlater]
      rfl

theorem blocksFrom?_trackBlocks {d : Disk} (hsides : 0 < d.sides)
    (hsectors : ∀ t, some t ∈ d.tracks → t.sectors.length ≤ Disk.maxSectors) :
    blocksFrom? d.extended d.sides 0 d.tracks = some (trackBlocks d) := by
  rw [blocksFrom?_eq d.extended hsides hsectors]
  simp only [Nat.zero_add]
  rfl

theorem diskFields?_eq (d : Disk) : diskFields? d = some (padTo blockSize
    (diskStart d.extended ++ [d.cylinders.toUInt8, d.sides.toUInt8])) := by
  unfold diskFields? diskStart
  generalize hsignature : (if d.extended then extendedHeader else standardHeader) = signature
  have hlength : signature.length = 0x22 := by
    rw [← hsignature]
    cases d.extended <;> rfl
  have hboth : (signature ++ creator).length = 0x29 := by
    rw [List.length_append, hlength]
    rfl
  have hcreator := @copy?_padTo blockSize 0x22 signature (Nat.le_of_eq hlength) creator (by decide)
  rw [padTo_of_length_le (Nat.le_of_eq hlength.symm)] at hcreator
  have hplace := @storeFrom?_padTo blockSize 0x30 (signature ++ creator)
    [d.cylinders.toUInt8, d.sides.toUInt8] (by omega) (show 0x32 ≤ 0x100 by decide)
  dsimp only
  rw [copy?_zeros (by rw [hlength]; decide), Option.bind_eq_bind, Option.bind_some, hcreator,
    Option.bind_some, hplace]

end DiskImage

namespace Disk

open DiskImage

/-- A disk that an image has room for: an entry for every place, and sectors that a track's block
can describe. -/
structure Bounded (d : Disk) : Prop where
  sides : d.sides = 1 ∨ d.sides = 2
  cylinders : d.cylinders ≤ 84
  length : d.tracks.length = d.cylinders * d.sides
  sectors : ∀ t, some t ∈ d.tracks → t.sectors.length ≤ 29

def toBytes? (d : Disk) : Option (List UInt8) := do
  let blocks ← blocksFrom? d.extended d.sides 0 d.tracks
  let header ← diskFields? d
  if d.extended then
    let header ← storeFrom? header 0x34 (blocks.map tableEntry)
    return header ++ (blocks.filterMap id).flatten
  else
    let size := standardSize blocks
    let header ← copy? header 0x32 0x34 (littleEndian size)
    return header ++ blocks.flatMap fun b => padTo size (b.getD [])

/-- Nothing that is written of a disk within bounds lies out of range. -/
theorem Bounded.toBytes?_eq {d : Disk} (h : d.Bounded) : d.toBytes? = some d.toBytes := by
  have hsides : 0 < d.sides := by
    have := h.sides
    omega
  have hentries : ((trackBlocks d).map tableEntry).length ≤ 168 := by
    rw [List.length_map, trackBlocks, List.length_mapIdx, h.length]
    have hcylinders := h.cylinders
    rcases h.sides with hs | hs <;> rw [hs] <;> omega
  let start := diskStart d.extended ++ [d.cylinders.toUInt8, d.sides.toUInt8]
  have hstart : start.length = 0x32 := by
    rw [List.length_append, length_diskStart]
    rfl
  have hblock (fields : List UInt8) : diskBlock d fields = padTo blockSize (start ++ fields) := rfl
  unfold toBytes? toBytes
  dsimp only
  rw [blocksFrom?_trackBlocks hsides h.sectors, diskFields?_eq, Option.bind_eq_bind,
    Option.bind_some, Option.bind_eq_bind, Option.bind_some]
  by_cases hflavour : d.extended = true
  · -- two zeros stand where the other flavour has its track size
    have htable := @storeFrom?_padTo blockSize 0x34 start ((trackBlocks d).map tableEntry)
      (by omega) (by unfold blockSize; omega)
    have hzeros : padTo 0x34 start = start ++ [0, 0] := by
      rw [padTo, hstart]
      rfl
    rw [if_pos hflavour, if_pos hflavour, htable, hzeros, List.append_assoc, hblock]
    rfl
  · have hsize := @copy?_padTo blockSize 0x32 start (Nat.le_of_eq hstart)
      (littleEndian (standardSize (trackBlocks d))) (show 0x34 ≤ 0x100 by decide)
    have hcopy : copy? (padTo blockSize start) 0x32 0x34
        (littleEndian (standardSize (trackBlocks d))) = _ := hsize
    rw [if_neg hflavour, if_neg hflavour, hcopy, padTo_of_length_le (Nat.le_of_eq hstart.symm),
      hblock]
    rfl

/-- The table of an extended image has no room for the tracks of 103 cylinders on two sides. -/
theorem toBytes?_eq_none {d : Disk} (hextended : d.extended = true) (hsides : 0 < d.sides)
    (hsectors : ∀ t, some t ∈ d.tracks → t.sectors.length ≤ maxSectors)
    (htracks : 204 < d.tracks.length) : d.toBytes? = none := by
  have hentries : ((trackBlocks d).map tableEntry).length = d.tracks.length := by
    rw [List.length_map, trackBlocks, List.length_mapIdx]
  let header := padTo blockSize (diskStart d.extended ++ [d.cylinders.toUInt8, d.sides.toUInt8])
  have hheader : header.length = blockSize := by
    rw [length_padTo, List.length_append, length_diskStart]
    rfl
  have htable : storeFrom? header 0x34 ((trackBlocks d).map tableEntry) = none := by
    refine storeFrom?_eq_none ?_ ?_
    · rw [hheader]
      decide
    · rw [hheader, hentries]
      unfold blockSize
      omega
  unfold toBytes?
  rw [blocksFrom?_trackBlocks hsides hsectors, diskFields?_eq, Option.bind_eq_bind,
    Option.bind_some, Option.bind_eq_bind, Option.bind_some, if_pos hextended, htable]
  rfl

end Disk

end AmstradCpc
