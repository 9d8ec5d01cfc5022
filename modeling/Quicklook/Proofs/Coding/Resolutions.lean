import Mathlib.Order.Bounds.Basic
import Quicklook.Proofs.Raster.Alpha
import Quicklook.Proofs.Raster.Overview

/-!
# Resolutions of lossy files

Each resolution after the first halves both edges of a picture, and a coder refuses a file with
more of them than the shorter edge can be halved. Their number is found by counting the zeros
above the highest bit of that edge, which is its logarithm counted from the other end. So the
number is always the largest one that both the picture and the profile allow.

* `toNat_leadingZeros`: the zeros of a word by its logarithm
* `admits_iff`: the allowed numbers are those up to the number that is taken
* `withinDepth_job`: no file is deeper than its picture, along either edge
* `resolutions_greatest`: all of this, and how the number grows
-/

namespace Quicklook

/-! ## §1 Zeros above the highest bit -/

namespace Binary

/-- The highest bit of a word is as far from the top as its logarithm is from 31. -/
theorem toNat_leadingZeros {w : UInt32} (h : w ≠ 0) :
    (leadingZeros w).toNat = 31 - Nat.log2 w.toNat := by
  have hne : w.toNat ≠ 0 := fun heq => h (UInt32.toNat_inj.1 heq)
  have hbits : w.toBitVec ≠ 0#32 := fun heq => h (UInt32.toBitVec_inj.1 heq)
  -- The highest bit puts the word between two powers of two, which settles its logarithm.
  have hlow : 2 ^ (31 - (leadingZeros w).toNat) ≤ w.toNat :=
    BitVec.two_pow_sub_clz_le_toNat_of_ne_zero (by decide) hbits
  have hhigh : w.toNat < 2 ^ (32 - (leadingZeros w).toNat) := BitVec.toNat_lt_two_pow_sub_clz
  have hlt : (leadingZeros w).toNat < 32 := BitVec.lt_def.1 (BitVec.clz_lt_iff_ne_zero.2 hbits)
  have hlog : Nat.log2 w.toNat = 31 - (leadingZeros w).toNat := by
    rw [Nat.log2_eq_iff hne]
    refine ⟨hlow, ?_⟩
    rwa [show 31 - (leadingZeros w).toNat + 1 = 32 - (leadingZeros w).toNat by omega]
  omega

end Binary

namespace Jp2

/-! ## §2 Allowed numbers of resolutions -/

namespace Profile

variable {p q : Profile} {edge other : UInt32} {n : ℕ}

/-- A profile allows a number of resolutions for a picture with the given shorter edge: at least
    one, no more than the profile has, and the edge has a pixel left after all halvings. A profile
    without resolutions and an empty edge both count as one. -/
structure Admits (p : Profile) (edge : UInt32) (n : ℕ) : Prop where
  pos : 1 ≤ n
  le_max : n ≤ max 1 p.maxResolutions.toNat
  pow_le : 2 ^ (n - 1) ≤ max 1 edge.toNat

/-- The bits of an edge from its highest one down are one more than its logarithm. -/
theorem toNat_bits (edge : UInt32) :
    (32 - Binary.leadingZeros (max edge 1)).toNat = Nat.log2 (max 1 edge.toNat) + 1 := by
  have hmax : (max edge 1).toNat = max 1 edge.toNat := by
    rw [UInt32.toNat_max, max_comm]
    rfl
  have hpos : 1 ≤ max 1 edge.toNat := le_max_left 1 _
  have hne : max edge 1 ≠ 0 := by
    rw [← UInt32.pos_iff_ne_zero, UInt32.lt_iff_toNat_lt, hmax]
    exact hpos
  -- No bit is beyond the top, so that neither difference is cut off at zero.
  have hlog : Nat.log2 (max 1 edge.toNat) < 32 := by
    rw [Nat.log2_lt (Nat.ne_of_gt hpos), ← hmax]
    exact (max edge 1).toNat_lt
  rw [UInt32.toNat_sub_of_le _ _ (Binary.leadingZeros_le _), Binary.toNat_leadingZeros hne, hmax]
  change 32 - _ = _
  omega

/-- The number that is taken, in whole numbers: what the edge allows, up to what the profile has. -/
theorem resolutionCount_eq (p : Profile) (edge : UInt32) :
    p.resolutionCount edge =
      min (Nat.log2 (max 1 edge.toNat) + 1) (max 1 p.maxResolutions.toNat) := by
  rw [resolutionCount_eq_toNat, UInt32.toNat_max, UInt32.toNat_min, UInt32.toNat_max, toNat_bits]
  change max 1 (min _ (max p.maxResolutions.toNat 1)) = _
  -- The lower bound never decides, because both other numbers are at least one.
  omega

/-- An edge of the most pixels that a word holds has 32 resolutions, an empty one has one. -/
example : resolutionCount ⟨20, 40⟩ 4294967295 = 32 ∧ resolutionCount ⟨20, 0⟩ 0 = 1 := by decide

/-- The number that is taken decides about all others. -/
theorem admits_iff : p.Admits edge n ↔ 1 ≤ n ∧ n ≤ p.resolutionCount edge := by
  have hedge : max 1 edge.toNat ≠ 0 := Nat.ne_of_gt (le_max_left 1 _)
  -- All halvings leave a pixel as long as there are no more of them than the logarithm.
  have hpow : ∀ k, 1 ≤ k → (k ≤ Nat.log2 (max 1 edge.toNat) + 1 ↔
      2 ^ (k - 1) ≤ max 1 edge.toNat) := by
    intro k hk
    rw [← Nat.le_log2 hedge]
    omega
  rw [resolutionCount_eq, le_min_iff]
  constructor
  · rintro ⟨hpos, hmax, hle⟩
    exact ⟨hpos, (hpow n hpos).2 hle, hmax⟩
  · rintro ⟨hpos, hlog, hmax⟩
    exact ⟨hpos, hmax, (hpow n hpos).1 hlog⟩

theorem admits_resolutionCount (p : Profile) (edge : UInt32) :
    p.Admits edge (p.resolutionCount edge) :=
  admits_iff.2 ⟨p.one_le_resolutionCount edge, le_rfl⟩

theorem isGreatest_resolutionCount (p : Profile) (edge : UInt32) :
    IsGreatest {n | p.Admits edge n} (p.resolutionCount edge) :=
  ⟨p.admits_resolutionCount edge, fun _ h => (admits_iff.1 h).2⟩

/-- What is allowed stays so for a longer edge and under a profile with more resolutions. -/
theorem Admits.mono (h : p.Admits edge n) (hmax : p.maxResolutions ≤ q.maxResolutions)
    (hedge : edge ≤ other) : q.Admits other n where
  pos := h.pos
  le_max := h.le_max.trans (max_le_max_left 1 (UInt32.le_iff_toNat_le.1 hmax))
  pow_le := h.pow_le.trans (max_le_max_left 1 (UInt32.le_iff_toNat_le.1 hedge))

theorem resolutionCount_mono (hmax : p.maxResolutions ≤ q.maxResolutions) (hedge : edge ≤ other) :
    p.resolutionCount edge ≤ q.resolutionCount other :=
  (admits_iff.1 ((p.admits_resolutionCount edge).mono hmax hedge)).2

end Profile

/-! ## §3 Depth of files -/

/-- A file is no deeper than its picture: each edge has a pixel left after all halvings. -/
def Job.WithinDepth (job : Job) : Prop :=
  2 ^ (job.resolutions - 1) ≤ job.width.toNat ∧ 2 ^ (job.resolutions - 1) ≤ job.height.toNat

instance (job : Job) : Decidable job.WithinDepth :=
  inferInstanceAs (Decidable (_ ∧ _))

end Jp2

/-- The codec, except that it refuses files which are deeper than their pictures. -/
def Codec.refusingDeep (codec : Codec) (reason : String) : Codec :=
  { codec with jp2 := fun job =>
      if job.WithinDepth then codec.jp2 job else .error reason }

namespace Raster

/-- The shorter edge is halved no more often than it can be, and so is the longer one. -/
theorem withinDepth_job (r : Raster) (p : Jp2.Profile) : (r.job p).WithinDepth := by
  have hle := (p.admits_resolutionCount r.shortEdge).pow_le
  rw [shortEdge, UInt32.toNat_min] at hle
  have hwidth : 1 ≤ r.width.toNat := UInt32.pos_iff_ne_zero.2 r.nonempty.1
  have hheight : 1 ≤ r.height.toNat := UInt32.pos_iff_ne_zero.2 r.nonempty.2
  change 2 ^ (p.resolutionCount (min r.width r.height) - 1) ≤ r.width.toNat ∧
    2 ^ (p.resolutionCount (min r.width r.height) - 1) ≤ r.height.toNat
  omega

/-- A codec that refuses deep files makes the same files of rasters. -/
theorem lossy_refusingDeep (r : Raster) (p : Jp2.Profile) (codec : Codec)
    (quality : Jpeg.Quality) (reason : String) :
    (Encoder.ofCodec (codec.refusingDeep reason) quality).lossy r p =
      (Encoder.ofCodec codec quality).lossy r p := by
  have hjp2 : (codec.refusingDeep reason).jp2 (r.job p) = codec.jp2 (r.job p) :=
    if_pos (r.withinDepth_job p)
  rw [lossy_eq, lossy_eq, hjp2]

end Raster

namespace Jp2.Profile

/-- **As many resolutions as are allowed.** Whatever the profile and the shorter edge are, the
    number of resolutions can be computed. It is at least one and at most that of the profile, the
    edge can be halved so often, and every number with these two properties is no larger. An edge
    that is no shorter, under a profile that has no fewer resolutions, has no fewer of them. The
    number of a raster is that of the shorter of its two edges, so that neither of them is halved
    too often, and a coder which refuses files for their depth never refuses one of a raster. -/
theorem resolutions_greatest (p : Profile) :
    (∀ edge : UInt32, ∃ n, p.resolutions? edge = some n ∧ n.toNat = p.resolutionCount edge ∧
      IsGreatest {k | p.Admits edge k} n.toNat) ∧
    (∀ (q : Profile) (edge other : UInt32), p.maxResolutions ≤ q.maxResolutions →
      edge ≤ other → p.resolutionCount edge ≤ q.resolutionCount other) ∧
    ∀ r : Raster,
      (∃ job, Job.make? r.rgb r.width r.height p = some (.ok job) ∧
        job.resolutions = p.resolutionCount (min r.width r.height)) ∧
      2 ^ (p.resolutionCount (min r.width r.height) - 1) ≤ r.width.toNat ∧
      2 ^ (p.resolutionCount (min r.width r.height) - 1) ≤ r.height.toNat ∧
      ∀ (codec : Codec) (quality : Jpeg.Quality) (reason : String),
        (Encoder.ofCodec (codec.refusingDeep reason) quality).lossy r p =
          (Encoder.ofCodec codec quality).lossy r p := by
  refine ⟨fun edge => ?_, fun q edge other hmax hedge => resolutionCount_mono hmax hedge,
    fun r => ?_⟩
  · obtain ⟨n, hn, hcount⟩ := p.resolutions?_eq_some edge
    exact ⟨n, hn, hcount, hcount ▸ p.isGreatest_resolutionCount edge⟩
  · obtain ⟨hwidth, hheight⟩ := r.withinDepth_job p
    exact ⟨⟨_, r.make?_job p, rfl⟩, hwidth, hheight, r.lossy_refusingDeep p⟩

/-- The profile of originals has five resolutions for an edge of 31 pixels and six for one of 32;
    of a raster of three pixels by two it takes two. -/
theorem lossy_resolutions_by_edge :
    let r : Raster := ⟨3, 2, 3, List.replicate 18 0, by decide, by decide, by decide⟩
    (lossy.maxResolutions ≤ lossy.maxResolutions ∧ (31 : UInt32) ≤ 32 ∧
      lossy.resolutionCount 31 ≤ lossy.resolutionCount 32) ∧
    lossy.resolutionCount 31 = 5 ∧ lossy.resolutionCount 32 = 6 ∧
    (∃ job, Job.make? r.rgb r.width r.height lossy = some (.ok job) ∧ job.resolutions = 2) ∧
      2 ^ (2 - 1) ≤ r.width.toNat ∧ 2 ^ (2 - 1) ≤ r.height.toNat := by
  intro r
  have hmax : lossy.maxResolutions ≤ lossy.maxResolutions := by decide
  have hedge : (31 : UInt32) ≤ 32 := by decide
  have htwo : lossy.resolutionCount (min r.width r.height) = 2 := by decide
  obtain ⟨-, hmono, hraster⟩ := resolutions_greatest lossy
  obtain ⟨hcount, hwidth, hheight, -⟩ := hraster r
  rw [htwo] at hcount hwidth hheight
  exact ⟨⟨hmax, hedge, hmono lossy 31 32 hmax hedge⟩, by decide, by decide, hcount, hwidth, hheight⟩

end Jp2.Profile

end Quicklook
