import AmstradCpc.Proofs.Snapshot.Codec

/-!
# Snapshot files, read and written again

Reading undoes writing, and writing undoes reading as far as a snapshot of version 3 can: a file of
an older version is written as version 3, with the fields that it lacks at their defaults, and from
then on neither reading nor writing changes anything (`Snapshot.codec_roundTrip`).
-/

namespace AmstradCpc

namespace Snapshot

@[simp] theorem version_readLater (file : ByteArray) (s : Snapshot) :
    (readLater file s).version = s.version := by
  simp only [readLater]
  split <;> split <;> rfl

/-! ## Older versions -/

/-- The fields that the version of a snapshot does not have are at their defaults. -/
structure LacksLater (s : Snapshot) : Prop where
  model : s.version < 2 → s.cpcType = 0
  motor : s.version < 3 → s.motor = false
  crtcType : s.version < 3 → s.crtcType = 0
  lineCounter : s.version < 3 → s.lineCounter = 0
  intRequest : s.version < 3 → s.intRequest = false

-- Nothing is read from where an older version has no fields.
theorem lacksLater_readLater (file : ByteArray) {s : Snapshot} (h : LacksLater s) :
    LacksLater (readLater file s) := by
  have hlt {v w : UInt8} (hv : v < w) : ¬ w ≤ v := UInt8.not_le.mpr hv
  by_cases h3 : 3 ≤ s.version
  · -- version 3 has all the fields
    have h2 : 2 ≤ s.version := UInt8.le_trans (by decide) h3
    constructor <;> rw [version_readLater] <;> intro hold
    case model => exact absurd h2 (hlt hold)
    all_goals exact absurd h3 (hlt hold)
  · unfold readLater
    by_cases h2 : 2 ≤ s.version
    · simp only [if_pos h2, if_neg h3]
      exact ⟨fun hold => absurd h2 (hlt hold), h.motor, h.crtcType, h.lineCounter, h.intRequest⟩
    · simp only [if_neg h2, if_neg h3]
      exact h

theorem lacksLater_of_ofBytes {file : ByteArray} {s : Snapshot} (h : ofBytes file = .ok s) :
    LacksLater s := by
  obtain ⟨-, rfl⟩ := ofBytes_ok h
  -- what every version has leaves the other fields at their defaults
  exact lacksLater_readLater file
    ⟨fun _ => rfl, fun _ => rfl, fun _ => rfl, fun _ => rfl, fun _ => rfl⟩

-- The version that a file was read from is not written.
theorem toBytes_version (s : Snapshot) (v : UInt8) : { s with version := v }.toBytes = s.toBytes :=
  rfl

/-- What was read is written as version 3 and read again unchanged. -/
theorem ofBytes_reencoded {file : ByteArray} {s : Snapshot} (h : ofBytes file = .ok s) :
    ofBytes s.toBytes = .ok { s with version := 3 } := by
  have him : s.cpu.im &&& 3 = s.cpu.im := and_three_of_le (im_le_of_ofBytes h)
  have hram : s.ram.size = s.ramKb.toNat * 1024 := size_ram_of_ofBytes h
  rw [← toBytes_version s 3]
  exact ofBytes_toBytes { s with version := 3 } rfl him hram

/-- Snapshots of version 3 with a dump of whole KB are read as they were written. A file of any
version that is read is written as version 3 with the same fields, those that its version lacks at
their defaults, and writing it a second time gives the same file. -/
theorem codec_roundTrip :
    (∀ (s : Snapshot) (k : Nat), s.version = 3 → s.cpu.im ≤ 3 → k ≤ 65535 →
      s.ram.size = k * 1024 → ofBytes s.toBytes = .ok s) ∧
    (∀ (file : ByteArray) (s : Snapshot), ofBytes file = .ok s →
      ofBytes s.toBytes = .ok { s with version := 3 } ∧
        { s with version := 3 }.toBytes = s.toBytes ∧ LacksLater s) := by
  constructor
  · intro s k hversion him hk hram
    refine ofBytes_toBytes s hversion (and_three_of_le him) ?_
    rw [hram, ramKb_of_size hk hram]
  · intro file s h
    exact ⟨ofBytes_reencoded h, toBytes_version s 3, lacksLater_of_ofBytes h⟩

/-- A file of version 1 with an empty dump: its unused bytes are not zero, and it goes on behind the
dump. -/
def oldFile : ByteArray :=
  ⟨(signature ++ List.replicate 8 0xFF ++ [1] ++ List.replicate 90 0x12 ++ [0, 0] ++
    List.replicate 147 0x34 ++ [5, 6]).toArray⟩

theorem codec_roundTrip_oldFile :
    (∃ s : Snapshot, s.cpu.im = 2 ∧ s.ram.size = 1024 ∧ ofBytes s.toBytes = .ok s) ∧
    ∃ s, ofBytes oldFile = .ok s ∧ s.version = 1 ∧ s.pen = 0x12 ∧ s.cpcType = 0 ∧
      ofBytes s.toBytes = .ok { s with version := 3 } ∧
      { s with version := 3 }.toBytes = s.toBytes := by
  constructor
  · let s : Snapshot := { cpu := { im := 2 }, ram := ⟨Array.replicate 1024 7⟩ }
    have hram : s.ram.size = 1 * 1024 := Array.size_replicate
    exact ⟨s, rfl, hram, codec_roundTrip.1 s 1 rfl (by decide) (by decide) hram⟩
  · have hread : (ofBytes oldFile).toOption.map (fun s => (s.version, s.pen)) = some (1, 0x12) := by
      decide +kernel
    cases hs : ofBytes oldFile with
    | error e => rw [hs] at hread; cases hread
    | ok s =>
      rw [hs] at hread
      obtain ⟨hversion, hpen⟩ := Prod.mk.inj (Option.some.inj hread)
      obtain ⟨hagain, hfile, hlacks⟩ := codec_roundTrip.2 _ s hs
      exact ⟨s, rfl, hversion, hpen, hlacks.model (by rw [hversion]; decide), hagain, hfile⟩

end Snapshot

end AmstradCpc
