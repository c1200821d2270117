import Mathlib.Data.List.Forall2
import AmstradCpc.Proofs.Disk.Extended
import AmstradCpc.Proofs.Disk.Overwrite

/-!
# Images that end early

An image that has been cut off behind the block about the disk is still an image, with the same
cylinders and sides. Of each track the reader needs the 256 bytes about it; what is missing of the
sectors' data behind them is zero (`Disk.exists_ofBytes_take`). So a track is lost, or has the same
sectors with some zeros in their data, and one that lies before the cut is the same
(`Disk.ofBytes_take`).
-/

namespace AmstradCpc

open DiskImage

/-! ## What a cut leaves -/

/-- A sector is left as another one if some of its bytes are replaced by zeros, and nothing else. -/
structure Sector.LeftAs (s s' : Sector) : Prop where
  id : s'.id = s.id
  st1 : s'.st1 = s.st1
  st2 : s'.st2 = s.st2
  length : s'.data.length = s.data.length
  data : ∀ i : Nat, s'.data[i]? = s.data[i]? ∨ s'.data[i]? = some 0

/-- A track is left as another one if that is so of its sectors, and it has nothing else to lose. -/
structure Track.LeftAs (t t' : Track) : Prop where
  gap3 : t'.gap3 = t.gap3
  filler : t'.filler = t.filler
  sectors : List.Forall₂ Sector.LeftAs t.sectors t'.sectors

/-- The sectors, with only `n` bytes of their data left. -/
def cutSectors : Nat → List Sector → List Sector
  | _, [] => []
  | n, s :: sectors =>
    { s with data := takePadded s.data.length (s.data.take n) } ::
      cutSectors (n - s.data.length) sectors

/-- The track, with only `n` bytes of its sectors' data left. -/
def Track.cut (n : Nat) (t : Track) : Track := { t with sectors := cutSectors n t.sectors }

/-- What there is to be read of a track whose block has only `n` bytes left. -/
def cutTrack (n : Nat) (o : Option Track) : Option Track :=
  if n < blockSize then none else o.map (Track.cut (n - blockSize))

theorem cutTrack_none (n : Nat) : cutTrack n none = none := by
  unfold cutTrack
  split <;> rfl

namespace DiskImage

/-! ## Sectors -/

theorem getElem?_takePadded (len : Nat) (bs : List UInt8) (i : Nat) :
    (takePadded len bs)[i]? = if i < len then some (bs.getD i 0) else none := by
  unfold takePadded padTo
  rw [List.getElem?_append, List.length_take, List.getElem?_replicate, List.getElem?_take]
  grind

theorem takePadded_take (len n : Nat) (bs : List UInt8) :
    takePadded len (bs.take n) = takePadded len ((takePadded len bs).take n) := by
  refine List.ext_getElem? fun i => ?_
  rw [getElem?_takePadded, getElem?_takePadded]
  by_cases hi : i < len
  · rw [if_pos hi, if_pos hi, List.getD_eq_getElem?_getD, List.getD_eq_getElem?_getD,
      List.getElem?_take, List.getElem?_take, getElem?_takePadded, if_pos hi]
    split
    · rw [List.getD_eq_getElem?_getD]
      rfl
    · rfl
  · rw [if_neg hi, if_neg hi]

theorem leftAs_takePadded (s : Sector) (n : Nat) :
    s.LeftAs { s with data := takePadded s.data.length (s.data.take n) } := by
  refine ⟨rfl, rfl, rfl, length_takePadded _ _, fun i => ?_⟩
  dsimp only
  rw [getElem?_takePadded, List.getD_eq_getElem?_getD, List.getElem?_take]
  by_cases hi : i < s.data.length
  · rw [if_pos hi]
    by_cases hn : i < n
    · rw [if_pos hn, List.getElem?_eq_getElem hi]
      exact .inl rfl
    · rw [if_neg hn]
      exact .inr rfl
  · rw [if_neg hi, List.getElem?_eq_none (Nat.not_lt.mp hi)]
    exact .inl rfl

theorem leftAs_cutSectors (n : Nat) (sectors : List Sector) :
    List.Forall₂ Sector.LeftAs sectors (cutSectors n sectors) := by
  induction sectors generalizing n with
  | nil => exact .nil
  | cons s sectors ih => exact .cons (leftAs_takePadded s n) (ih _)

theorem cutSectors_of_le {n : Nat} {sectors : List Sector}
    (h : (sectors.flatMap (·.data)).length ≤ n) : cutSectors n sectors = sectors := by
  induction sectors generalizing n with
  | nil => rfl
  | cons s sectors ih =>
    rw [List.flatMap_cons, List.length_append] at h
    have hdata : takePadded s.data.length (s.data.take n) = s.data := by
      have happend := takePadded_append s.data []
      rw [List.append_nil] at happend
      rw [List.take_of_length_le (by omega : s.data.length ≤ n), happend]
    rw [cutSectors, hdata, ih (by omega)]

-- Both running offsets are the same in the shorter file; there is only less behind them.
theorem readSectors_take (extended : Bool) (size count : Nat) (descriptors data : List UInt8)
    (n : Nat) : readSectors extended size count descriptors (data.take n) =
      cutSectors n (readSectors extended size count descriptors data) := by
  fun_induction readSectors extended size count descriptors data generalizing n with
  | case1 count c h r k st1 st2 lo hi descriptors data len ih =>
    rw [readSectors, cutSectors]
    dsimp only
    rw [length_takePadded, ← takePadded_take, List.drop_take, ih]
  | case2 count descriptors data hno =>
    rw [readSectors.eq_2 _ _ _ _ _ hno]
    rfl

/-! ## Tracks -/

-- The 256 bytes about a track are there in the shorter file too.
theorem readTrack_take (extended : Bool) (block : List UInt8) {n : Nat} (h : blockSize ≤ n) :
    readTrack extended (block.take n) =
      (readTrack extended block).map (Track.cut (n - blockSize)) := by
  have hheader : (block.take n).take blockSize = block.take blockSize := by
    rw [List.take_take, Nat.min_eq_left h]
  have hdata : (block.take n).drop blockSize = (block.drop blockSize).take (n - blockSize) :=
    List.drop_take
  unfold readTrack
  dsimp only
  rw [hheader, hdata, readSectors_take]
  split <;> rfl

theorem readPlace_take {extended : Bool} {size : Nat} {rest : List UInt8} {o : Option Track}
    (h : readPlace extended size rest = .ok o) (n : Nat) :
    readPlace extended size (rest.take n) = .ok (cutTrack n o) := by
  unfold cutTrack
  by_cases hn : n < blockSize
  · rw [if_pos hn]
    refine if_pos (.inr ?_)
    rw [List.length_take, List.length_take]
    omega
  · have hblock : blockSize ≤ n := Nat.not_lt.mp hn
    rw [if_neg hn]
    unfold readPlace at h ⊢
    rw [List.take_take, Nat.min_eq_left hblock]
    split at h
    case isTrue hnone =>
      obtain rfl := Except.ok.inj h
      exact if_pos hnone
    case isFalse htrack =>
      rw [if_neg htrack, readTrack_take extended rest hblock]
      cases hread : readTrack extended rest with
      | error e =>
        rw [hread] at h
        cases h
      | ok t =>
        rw [hread] at h
        obtain rfl := Except.ok.inj h
        rfl

theorem readTracks_take {extended : Bool} {sizes : List Nat} {rest : List UInt8}
    {tracks : List (Option Track)} (h : readTracks extended sizes rest = .ok tracks) (n : Nat) :
    ∃ tracks', readTracks extended sizes (rest.take n) = .ok tracks' ∧ ∀ i : Nat,
      (tracks'[i]?).join = cutTrack (n - totalSize (sizes.take i)) (tracks[i]?).join := by
  obtain ⟨hlength, hplaces⟩ := readTracks_ok h
  have hcut (i size : Nat) (hsize : sizes[i]? = some size) :
      ∃ o, readPlace extended size ((rest.take n).drop (totalSize (sizes.take i))) = .ok o ∧
        o = cutTrack (n - totalSize (sizes.take i)) (tracks[i]?).join := by
    have hi : i < tracks.length := by
      rw [hlength]
      exact (List.getElem?_eq_some_iff.mp hsize).1
    have hplace := hplaces i size tracks[i] hsize (List.getElem?_eq_getElem hi)
    rw [List.drop_take, List.getElem?_eq_getElem hi]
    exact ⟨_, readPlace_take hplace _, rfl⟩
  obtain ⟨tracks', htracks', hlength', hcuts⟩ := exists_readTracks hcut
  refine ⟨tracks', htracks', fun i => ?_⟩
  cases hi : tracks'[i]? with
  | some o => exact hcuts i o hi
  | none =>
    have hend := List.getElem?_eq_none_iff.mp hi
    rw [List.getElem?_eq_none (by omega : tracks.length ≤ i)]
    exact (cutTrack_none _).symm

end DiskImage

theorem Track.leftAs_cut (t : Track) (n : Nat) : t.LeftAs (t.cut n) :=
  ⟨rfl, rfl, leftAs_cutSectors n t.sectors⟩

theorem cutTrack_of_le {t : Track} {n : Nat} (h : blockSize + t.dataLength ≤ n) :
    cutTrack n (some t) = some t := by
  have hcut : t.cut (n - blockSize) = t := by
    unfold Track.cut
    rw [cutSectors_of_le (Nat.le_sub_of_add_le' h)]
  unfold cutTrack
  rw [if_neg (by omega), Option.map_some, hcut]

namespace DiskImage

/-! ## Places in a file -/

/-- Where the block of track `i` begins: behind the block about the disk and the blocks of the tracks
before it. An extended image has a table of sizes in units of 256 bytes, a standard image has one
size for every track. -/
def blockStart (extended : Bool) (file : List UInt8) (i : Nat) : Nat :=
  0x100 + totalSize (if extended then ((file.drop 0x34).take i).map fun b => b.toNat * 0x100
    else List.replicate i ((file.getD 0x32 0).toNat + 0x100 * (file.getD 0x33 0).toNat))

-- The table and the size stand in the block about the disk, which has room for 204 entries.
theorem blockStart_eq {extended : Bool} {file : List UInt8} {i count : Nat} (hi : i ≤ count)
    (hcount : count ≤ 204) : blockStart extended file i =
      blockSize + totalSize ((trackSizes extended count (file.take blockSize)).take i) := by
  unfold blockStart trackSizes
  cases extended with
  | true =>
    rw [if_pos rfl, if_pos rfl, ← List.map_take, List.take_take, Nat.min_eq_left hi,
      List.drop_take, List.take_take, Nat.min_eq_left (by unfold blockSize; omega)]
    rfl
  | false =>
    rw [if_neg Bool.false_ne_true, if_neg Bool.false_ne_true, List.take_replicate,
      Nat.min_eq_left hi, List.getD_eq_getElem?_getD, List.getD_eq_getElem?_getD,
      List.getD_eq_getElem?_getD, List.getD_eq_getElem?_getD, List.getElem?_take,
      List.getElem?_take]
    rfl

end DiskImage

namespace Disk

/-! ## Cut images -/

theorem track?_of_places {d d' : Disk} {f : Nat → Option Track → Option Track}
    (hcylinders : d'.cylinders = d.cylinders) (hsides : d'.sides = d.sides)
    (hnone : ∀ i, f i none = none)
    (h : ∀ i < d.cylinders * d.sides, (d'.tracks[i]?).join = f i (d.tracks[i]?).join)
    (cylinder side : Nat) :
    d'.track? cylinder side = f (d.index cylinder side) (d.track? cylinder side) := by
  unfold track?
  rw [hcylinders, hsides]
  split
  case isFalse => exact (hnone _).symm
  case isTrue hplace =>
    have hindex : d'.index cylinder side = d.index cylinder side := by
      unfold index
      rw [hsides]
    rw [hindex]
    exact h _ (index_lt hplace.1 hplace.2)

/-- What is read of an image that has been cut off behind the block about the disk: of every track
as much as the bytes from its place to the cut hold. -/
theorem exists_ofBytes_take {file : List UInt8} {d : Disk} (h : ofBytes file = .ok d) {k : Nat}
    (hk : blockSize ≤ k) : ∃ d', ofBytes (file.take k) = .ok d' ∧ d'.cylinders = d.cylinders ∧
      d'.sides = d.sides ∧ d'.extended = d.extended ∧ ∀ cylinder side,
        d'.track? cylinder side =
          cutTrack (k - blockStart d.extended file (d.index cylinder side))
            (d.track? cylinder side) := by
  obtain ⟨hlong, hsides, extended, tracks, hflavour, htracks, rfl⟩ := ofBytes_eq_ok_iff.mp h
  obtain ⟨tracks', htracks', hcut⟩ := readTracks_take htracks (k - blockSize)
  have hheader : (file.take k).take blockSize = file.take blockSize := by
    rw [List.take_take, Nat.min_eq_left hk]
  have hrest : (file.take k).drop blockSize = (file.drop blockSize).take (k - blockSize) :=
    List.drop_take
  have hlong' : blockSize ≤ (file.take k).length := by
    rw [List.length_take]
    exact Nat.le_min.mpr ⟨hk, hlong⟩
  rw [← hheader] at hsides hflavour htracks'
  rw [← hrest] at htracks'
  refine ⟨_, ofBytes_eq_ok_iff.mpr ⟨hlong', hsides, extended, tracks', hflavour, htracks', rfl⟩, ?_⟩
  rw [hheader] at hsides ⊢
  refine ⟨rfl, rfl, rfl, track?_of_places (f := fun i => cutTrack (k - blockStart extended file i))
    rfl rfl (fun i => cutTrack_none _) fun i hi => ?_⟩
  dsimp only at hi ⊢
  rw [hcut, Nat.sub_sub, ← blockStart_eq (Nat.le_of_lt hi) (places_le hsides _)]

/-- An image that has been cut off behind the block about the disk is an image of a disk with the
same cylinders and sides, in the same flavour. Each of its tracks is left as another one or is not
there at all, and those that end before the cut are the same. -/
theorem ofBytes_take {file : List UInt8} {d : Disk} (h : ofBytes file = .ok d) {k : Nat}
    (hk : 0x100 ≤ k) : ∃ d', ofBytes (file.take k) = .ok d' ∧ d'.cylinders = d.cylinders ∧
      d'.sides = d.sides ∧ d'.extended = d.extended ∧ ∀ cylinder side,
        (d'.track? cylinder side = none ∨ ∃ t t', d.track? cylinder side = some t ∧
          d'.track? cylinder side = some t' ∧ t.LeftAs t') ∧
        ∀ t, d.track? cylinder side = some t →
          blockStart d.extended file (d.index cylinder side) + 0x100 + t.dataLength ≤ k →
          d'.track? cylinder side = some t := by
  obtain ⟨d', hd', hcylinders, hsides, hextended, htracks⟩ := exists_ofBytes_take h hk
  refine ⟨d', hd', hcylinders, hsides, hextended, fun cylinder side => ?_⟩
  rw [htracks cylinder side]
  refine ⟨?_, fun t ht hbefore => ?_⟩
  · unfold cutTrack
    split
    case isTrue => exact .inl rfl
    case isFalse =>
      cases ht : d.track? cylinder side with
      | none => exact .inl rfl
      | some t => exact .inr ⟨t, _, rfl, rfl, t.leftAs_cut _⟩
  · have hwhole : blockSize + t.dataLength ≤ k - blockStart d.extended file (d.index cylinder side) := by
      show 0x100 + t.dataLength ≤ _
      omega
    rw [ht, cutTrack_of_le hwhole]

/-- A track with one sector of 128 bytes. -/
def oneSector : Track := ⟨0x4E, 0xE5, [⟨⟨0, 0, 0xC1, 0⟩, 0, 0, List.replicate 128 0xE5⟩]⟩

/-- An extended image with two such tracks. -/
def twoTracks : List UInt8 :=
  padTo 0x30 extendedHeader ++ [2, 1, 0, 0, 2, 2] ++ List.replicate 202 0 ++
    trackBlock true 0 0 oneSector ++ trackBlock true 1 0 oneSector

set_option maxRecDepth 8000 in
/-- Cut off three bytes into the data of the second track, the image has the first one as it was. -/
theorem ofBytes_take_twoTracks :
    ofBytes twoTracks = .ok ⟨2, 1, [some oneSector, some oneSector], true, false, false⟩ ∧
      ∃ d', ofBytes (twoTracks.take 0x403) = .ok d' ∧ d'.cylinders = 2 ∧ d'.sides = 1 ∧
        d'.track? 0 0 = some oneSector ∧
        (d'.track? 1 0 = none ∨ ∃ t', d'.track? 1 0 = some t' ∧ oneSector.LeftAs t') := by
  have hwhole : ofBytes twoTracks =
      .ok ⟨2, 1, [some oneSector, some oneSector], true, false, false⟩ := rfl
  obtain ⟨d', hd', hcylinders, hsides, -, htracks⟩ := ofBytes_take hwhole (by decide : 0x100 ≤ 0x403)
  refine ⟨hwhole, d', hd', hcylinders, hsides, (htracks 0 0).2 oneSector rfl (by decide), ?_⟩
  rcases (htracks 1 0).1 with hnone | ⟨t, t', ht, ht', hleft⟩
  · exact .inl hnone
  · obtain rfl : oneSector = t := Option.some.inj ht
    exact .inr ⟨t', ht', hleft⟩

end Disk

end AmstradCpc
