import AmstradCpc.Proofs.Disk.Modified
import AmstradCpc.Proofs.Floppy.Changes
import Mathlib.Data.List.Induction

/-!
# Unsaved changes

A host reads disk images and makes blank ones, puts them into the drives of a controller and takes
them out again, and changes and saves them wherever they are, while programs write to those in the
drives. `Desk` has the controller and says where every image is; the images go by numbers.

An image whose flag is down can be thrown away at any time: it holds what it held when it was read,
made or last saved (`Desk.unmodified_same`). That is so because only these three take the flag down
(`Desk.modified_act`), and all else that becomes of an image is flagged (`Desk.flagged_act`), also
the writes that a controller carries out (`PendingWrite.flagged_onDisk`).
-/

namespace AmstradCpc.Floppy

/-! ## Writes -/

theorem flagged_writeSectors (d : Disk) (cylinder side : Nat) (targets : List SectorId)
    (bytes : List UInt8) : d.Flagged (writeSectors d cylinder side targets bytes) := by
  induction targets generalizing d bytes with
  | nil => exact .refl d
  | cons id targets ih => exact (d.flagged_writeSector cylinder side id _).trans (ih _ _)

theorem PendingWrite.flagged_onDisk (pending : PendingWrite) (bytes : List UInt8) (d : Disk) :
    d.Flagged (pending.onDisk bytes d) := by
  cases pending with
  | sectors u cylinder targets eot n => exact flagged_writeSectors d _ _ targets bytes
  | format u cylinder gap3 filler n => exact d.flagged_formatTrack _ _ _ gap3 filler

/-! ## Images on a desk -/

/-- Where an image is. -/
inductive Place
  | drive (n : DriveNumber)
  | outside (d : Disk)
  /-- It has not come yet, or another disk has been put into its drive. -/
  | nowhere
  deriving DecidableEq

namespace Place

/-- The image at a place. -/
def image? (c : Controller) : Place → Option Disk
  | .drive n => (c.drive n).disk
  | .outside d => some d
  | .nowhere => none

variable {p : Place} {c : Controller}

theorem image?_setDrive_ne {n : DriveNumber} (hp : p ≠ .drive n) (d : Drive) :
    p.image? (c.setDrive n d) = p.image? c := by
  cases p with
  | drive k =>
    have hk : k ≠ n := fun hk => hp (congrArg Place.drive hk)
    exact congrArg Drive.disk (Controller.drive_setDrive_ne hk d c)
  | outside d' => rfl
  | nowhere => rfl

theorem flagged_act {call : HostCall} (hcall : ∀ n, ¬call.Handles n) {d' : Disk}
    (h : p.image? (call.act c) = some d') : ∃ d, p.image? c = some d ∧ d.Flagged d' := by
  cases p with
  | drive n =>
    rcases c.disk_act n (hcall n) with hsame | ⟨v, pending, bytes, -, -, -, hwritten⟩
    · exact ⟨d', hsame.symm.trans h, .refl d'⟩
    · obtain ⟨d, hd, rfl⟩ := Option.map_eq_some_iff.mp (hwritten.symm.trans h)
      exact ⟨d, hd, pending.flagged_onDisk bytes d⟩
  | outside d => exact ⟨d', h, .refl d'⟩
  | nowhere => cases h

end Place

/-- A controller and the images that a host has for it. -/
structure Desk where
  controller : Controller := {}
  place : Nat → Place := fun _ => .nowhere

/-- What becomes of images. -/
inductive ImageEvent
  | read (i : Nat) {file : List UInt8} {d : Disk} (h : Disk.ofBytes file = .ok d)
  | create (i cylinders sides : Nat)
  | insert (n : DriveNumber) (i : Nat)
  | eject (n : DriveNumber)
  | update (i : Nat) (u : Disk.Update)
  /-- A byte through the data register, or another call that leaves the disks to the controller. -/
  | call (call : HostCall) (h : ∀ n, ¬call.Handles n)

/-- The event brings the image, or it is the saving of the image. -/
def ImageEvent.Settles (i : Nat) : ImageEvent → Prop
  | .read j _ | .create j _ _ | .update j .markSaved => j = i
  | _ => False

namespace Desk

def image? (s : Desk) (i : Nat) : Option Disk := (s.place i).image? s.controller

/-- Puts an image down outside the drives. -/
def put (s : Desk) (i : Nat) (d : Disk) : Desk :=
  { s with place := fun j => if j = i then .outside d else s.place j }

/-- Puts an image into a drive. The disk that was there is lost. -/
def insert (s : Desk) (n : DriveNumber) (i : Nat) : Desk :=
  match s.place i with
  | .outside d =>
    { controller := s.controller.insert n d
      place := fun j =>
        if j = i then .drive n else if s.place j = .drive n then .nowhere else s.place j }
  | .drive _ | .nowhere => s

/-- Takes the disk out of a drive. -/
def eject (s : Desk) (n : DriveNumber) : Desk where
  controller := (s.controller.eject n).2
  place j :=
    if s.place j = .drive n then (s.controller.eject n).1.elim .nowhere .outside else s.place j

/-- Changes an image where it is. -/
def update (s : Desk) (i : Nat) (u : Disk.Update) : Desk :=
  match s.place i with
  | .drive n => { s with controller := s.controller.mapDisk n fun d => u.apply d }
  | .outside d => s.put i (u.apply d)
  | .nowhere => s

def act (s : Desk) : ImageEvent → Desk
  | .read i (d := d) _ => s.put i d
  | .create i cylinders sides => s.put i (.unformatted cylinders sides)
  | .insert n i => s.insert n i
  | .eject n => s.eject n
  | .update i u => s.update i u
  | .call call _ => { s with controller := call.act s.controller }

def run (events : List ImageEvent) : Desk := events.foldl act {}

/-- No drive has two images. -/
def Apart (s : Desk) : Prop := ∀ n i j, s.place i = .drive n → s.place j = .drive n → i = j

/-! ## One event -/

section Step

variable {s : Desk} {i j : Nat} {n : DriveNumber}

theorem image?_eq {p : Place} (h : s.place i = p) : s.image? i = p.image? s.controller :=
  congrArg (Place.image? s.controller) h

theorem place_put_self (s : Desk) (i : Nat) (d : Disk) : (s.put i d).place i = .outside d :=
  if_pos rfl

theorem place_put_ne (h : i ≠ j) (d : Disk) : (s.put j d).place i = s.place i := if_neg h

theorem image?_put_self (s : Desk) (i : Nat) (d : Disk) : (s.put i d).image? i = some d :=
  image?_eq (place_put_self s i d)

theorem image?_put_ne (h : i ≠ j) (d : Disk) : (s.put j d).image? i = s.image? i :=
  image?_eq (place_put_ne h d)

-- Besides the image that is put in, only the one that was in the drive changes its place: it is
-- lost.
theorem image?_insert {d : Disk} (h : (s.insert n j).image? i = some d) : s.image? i = some d := by
  unfold insert at h
  split at h
  case h_2 | h_3 => exact h
  case h_1 d' hj =>
    dsimp only [image?] at h
    by_cases hij : i = j
    · rw [if_pos hij] at h
      rw [hij, image?_eq hj, ← h]
      show some d' = ((s.controller.insert n d').drive n).disk
      rw [Controller.insert, Controller.drive_setDrive_self]
    rw [if_neg hij] at h
    by_cases hi : s.place i = .drive n
    · rw [if_pos hi] at h
      cases h
    · rw [if_neg hi] at h
      exact (Place.image?_setDrive_ne hi _).symm.trans h

theorem image?_eject (s : Desk) (n : DriveNumber) (i : Nat) :
    (s.eject n).image? i = s.image? i := by
  dsimp only [image?, eject]
  by_cases hi : s.place i = .drive n
  · rw [if_pos hi, hi]
    show _ = (s.controller.eject n).1
    cases (s.controller.eject n).1 <;> rfl
  · rw [if_neg hi]
    exact Place.image?_setDrive_ne hi _

theorem image?_update_self (s : Desk) (i : Nat) (u : Disk.Update) :
    (s.update i u).image? i = (s.image? i).map fun d => u.apply d := by
  unfold update
  split
  case h_1 n hi =>
    dsimp only [image?]
    rw [hi]
    exact (Controller.disk_mapDisk n n _ _).trans (if_pos rfl)
  case h_2 d hi => rw [image?_put_self, image?_eq hi, Place.image?, Option.map_some]
  case h_3 hi => rw [image?_eq hi, Place.image?, Option.map_none]

theorem image?_update_ne (hs : s.Apart) (h : i ≠ j) (u : Disk.Update) :
    (s.update j u).image? i = s.image? i := by
  unfold update
  split
  case h_1 n hj =>
    have hi : s.place i ≠ .drive n := fun hi => h (hs n i j hi hj)
    exact Place.image?_setDrive_ne hi _
  case h_2 => exact image?_put_ne h _
  case h_3 => rfl

/-- What becomes of an image is flagged, unless it is saved. -/
theorem flagged_act (hs : s.Apart) {e : ImageEvent} (he : ¬e.Settles i) {d' : Disk}
    (h : (s.act e).image? i = some d') : ∃ d, s.image? i = some d ∧ d.Flagged d' := by
  cases e with
  | read j hfile => exact ⟨d', (image?_put_ne (fun hij => he hij.symm) _).symm.trans h, .refl d'⟩
  | create j cylinders sides =>
    exact ⟨d', (image?_put_ne (fun hij => he hij.symm) _).symm.trans h, .refl d'⟩
  | insert n j => exact ⟨d', image?_insert h, .refl d'⟩
  | eject n => exact ⟨d', (image?_eject s n i).symm.trans h, .refl d'⟩
  | update j u =>
    by_cases hij : i = j
    · subst hij
      obtain ⟨d, hd, rfl⟩ := Option.map_eq_some_iff.mp ((image?_update_self s i u).symm.trans h)
      have hu : u ≠ .markSaved := by
        rintro rfl
        exact he rfl
      exact ⟨d, hd, d.flagged_update hu⟩
    · exact ⟨d', (image?_update_ne hs hij u).symm.trans h, .refl d'⟩
  | call call hcall => exact Place.flagged_act hcall h

/-- An image that has just come or been saved is not modified. -/
theorem modified_act {e : ImageEvent} (he : e.Settles i) {d : Disk}
    (h : (s.act e).image? i = some d) : d.modified = false := by
  cases e with
  | read j hfile =>
    obtain rfl : j = i := he
    obtain rfl := Option.some.inj ((image?_put_self s j _).symm.trans h)
    exact Disk.modified_ofBytes hfile
  | create j cylinders sides =>
    obtain rfl : j = i := he
    obtain rfl := Option.some.inj ((image?_put_self s j _).symm.trans h)
    rfl
  | update j u =>
    cases u with
    | markSaved =>
      obtain rfl : j = i := he
      obtain ⟨d, -, rfl⟩ := Option.map_eq_some_iff.mp ((image?_update_self s j _).symm.trans h)
      rfl
    | write | format | protect => exact he.elim
  | insert | eject | call => exact he.elim

end Step

/-! ## Runs -/

-- Where no image comes into a drive.
theorem Apart.of_place {s s' : Desk} (hs : s.Apart)
    (h : ∀ n i, s'.place i = .drive n → s.place i = .drive n) : s'.Apart :=
  fun n i j hi hj => hs n i j (h n i hi) (h n j hj)

theorem Apart.put {s : Desk} (hs : s.Apart) (j : Nat) (d : Disk) : (s.put j d).Apart := by
  refine hs.of_place fun n i hi => ?_
  by_cases hij : i = j
  · subst hij
    rw [place_put_self] at hi
    cases hi
  · exact (place_put_ne hij d).symm.trans hi

theorem Apart.insert {s : Desk} (hs : s.Apart) (n : DriveNumber) (j : Nat) :
    (s.insert n j).Apart := by
  unfold Desk.insert
  split
  case h_2 | h_3 => exact hs
  case h_1 d hj =>
    -- all others in that drive are lost
    have hplace (k : DriveNumber) (i : Nat)
        (hi : (if i = j then Place.drive n else if s.place i = .drive n then .nowhere
          else s.place i) = .drive k) :
        (i = j ∧ k = n) ∨ (k ≠ n ∧ s.place i = .drive k) := by
      split at hi
      case isTrue hij => exact .inl ⟨hij, (Place.drive.inj hi).symm⟩
      case isFalse =>
        split at hi
        case isTrue => cases hi
        case isFalse hne => exact .inr ⟨fun hk => hne (hk ▸ hi), hi⟩
    intro k i i' hi hi'
    rcases hplace k i hi with ⟨rfl, hk⟩ | ⟨hk, hi⟩ <;>
      rcases hplace k i' hi' with ⟨rfl, hk'⟩ | ⟨hk', hi'⟩
    · rfl
    · exact absurd hk hk'
    · exact absurd hk' hk
    · exact hs k i i' hi hi'

theorem Apart.eject {s : Desk} (hs : s.Apart) (n : DriveNumber) : (s.eject n).Apart := by
  refine hs.of_place fun k i hi => ?_
  dsimp only [Desk.eject] at hi
  split at hi
  case isTrue => cases hdisk : (s.controller.eject n).1 <;> rw [hdisk] at hi <;> cases hi
  case isFalse => exact hi

theorem Apart.act {s : Desk} (hs : s.Apart) (e : ImageEvent) : (s.act e).Apart := by
  cases e with
  | read j hfile => exact hs.put j _
  | create j cylinders sides => exact hs.put j _
  | insert n j => exact hs.insert n j
  | eject n => exact hs.eject n
  | update j u =>
    show (s.update j u).Apart
    unfold update
    split
    case h_1 | h_3 => exact hs
    case h_2 d hj => exact hs.put j _
  | call call hcall => exact hs

theorem run_append (events : List ImageEvent) (e : ImageEvent) :
    run (events ++ [e]) = (run events).act e :=
  List.foldl_append

theorem apart_run (events : List ImageEvent) : (run events).Apart := by
  induction events using List.reverseRecOn with
  | nil => exact fun n i j hi => nomatch hi
  | append_singleton events e ih =>
    rw [run_append]
    exact ih.act e

/-- An image that is not modified holds what it held when it was last saved or, if it never was,
when it was read or made; so it is saved as the same bytes. -/
theorem unmodified_same {events : List ImageEvent} {i : Nat} {d : Disk}
    (h : (run events).image? i = some d) (hclean : d.modified = false) :
    ∃ before e later d₀, events = before ++ e :: later ∧ e.Settles i ∧
      (∀ e' ∈ later, ¬e'.Settles i) ∧ (run (before ++ [e])).image? i = some d₀ ∧
      d₀.modified = false ∧ d₀.SameContents d ∧ d.toBytes = d₀.toBytes := by
  induction events using List.reverseRecOn generalizing d with
  | nil => cases h
  | append_singleton events e ih =>
    by_cases he : e.Settles i
    · refine ⟨events, e, [], d, rfl, he, nofun, h, hclean, .refl d, rfl⟩
    · rw [run_append] at h
      obtain ⟨d₁, hbefore, hflagged⟩ := flagged_act (apart_run events) he h
      obtain ⟨hclean₁, hsame⟩ := hflagged hclean
      obtain ⟨before, e₀, later, d₀, rfl, he₀, hlater, hd₀, hclean₀, hsame₀, -⟩ :=
        ih hbefore hclean₁
      have hcontents := hsame₀.trans hsame
      refine ⟨before, e₀, later ++ [e], d₀, List.append_assoc .., he₀, fun e' he' => ?_, hd₀,
        hclean₀, hcontents, hcontents.toBytes_eq⟩
      rcases List.mem_append.mp he' with hold | hnew
      · exact hlater e' hold
      · exact List.mem_singleton.mp hnew ▸ he

/-- A blank disk is formatted and saved in drive A, and protected in drive B, where it cannot be
formatted. -/
def movedImage : List ImageEvent :=
  let program (bytes : List UInt8) : List ImageEvent :=
    bytes.map fun v => .call (.write v) fun _ => id
  [.create 0 1 1, .insert .a 0] ++ program [0x4D, 0, 0, 1, 0x4E, 0xE5, 0, 0, 1, 0] ++
    List.replicate 7 (.call .read fun _ => id) ++
    [.update 0 .markSaved, .eject .a, .insert .b 0, .update 0 (.protect true)] ++
    program [0x4D, 1, 0, 1, 0x4E, 0x00]

theorem unmodified_same_moved :
    ∃ d, (run movedImage).image? 0 = some d ∧ d.modified = false ∧ d.writeProtected = true ∧
      ∃ before e later d₀, movedImage = before ++ e :: later ∧ e.Settles 0 ∧
        (∀ e' ∈ later, ¬e'.Settles 0) ∧ (run (before ++ [e])).image? 0 = some d₀ ∧
        d₀.modified = false ∧ d₀.SameContents d ∧ d.toBytes = d₀.toBytes := by
  have himage : (run movedImage).image? 0 = some
      { cylinders := 1
        sides := 1
        tracks := [some ⟨0x4E, 0xE5, [Disk.freshSector 0xE5 ⟨0, 0, 1, 0⟩]⟩]
        extended := true
        writeProtected := true } := by
    decide
  exact ⟨_, himage, rfl, rfl, unmodified_same himage rfl⟩

end Desk

end AmstradCpc.Floppy
