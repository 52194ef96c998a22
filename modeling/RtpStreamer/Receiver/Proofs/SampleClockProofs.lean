import RtpStreamer.Receiver.SampleClock

/-!
# The playout clock as integer time

A normalized timespec is a number of nanoseconds whose whole seconds fit in 64 bits. `add_millis` adds to
the number, so the deadlines do not drift (`deadlineAfter_eq_some_iff`); `samples_since` is exact as long
as the nanoseconds times the sampling rate fit in 64 bits (`samplesSince_eq_some_iff`).
-/

namespace RtpStreamer

open CheckedSigned

/-- The 64-bit range. -/
theorem I64.bounds (v : I64) :
    -9223372036854775808 ≤ v.toInt ∧ v.toInt ≤ 9223372036854775807 := by
  have hlow := v.le_toInt
  have hhigh := v.toInt_lt
  omega

theorem I64.exists_toInt_eq_iff (x : Int) :
    (∃ v : I64, v.toInt = x) ↔ -9223372036854775808 ≤ x ∧ x ≤ 9223372036854775807 := by
  constructor
  · rintro ⟨v, rfl⟩
    exact v.bounds
  · rintro ⟨hlow, hhigh⟩
    exact exists_toInt_eq (a := BitVec.intMin 64) (b := BitVec.intMax 64) hlow hhigh

namespace Timespec

variable {ts ts' : Timespec}

/-- A normalized timespec is determined by its time. -/
theorem Normalized.eq_of_nanos_eq (h : ts.Normalized) (h' : ts'.Normalized)
    (heq : ts.nanos = ts'.nanos) : ts = ts' := by
  obtain ⟨sec, nsec⟩ := ts
  obtain ⟨sec', nsec'⟩ := ts'
  obtain ⟨hlow, hhigh⟩ := h
  obtain ⟨hlow', hhigh'⟩ := h'
  simp only [nanos] at heq hlow hhigh hlow' hhigh'
  have hsec : sec = sec' := BitVec.eq_of_toInt_eq (by omega)
  have hnsec : nsec = nsec' := BitVec.eq_of_toInt_eq (by omega)
  rw [hsec, hnsec]

/-- A time has a normalized timespec when its whole seconds fit in 64 bits. -/
theorem exists_normalized_iff (x : Int) :
    (∃ ts : Timespec, ts.Normalized ∧ ts.nanos = x) ↔
      -9223372036854775808 ≤ x / 1000000000 ∧ x / 1000000000 ≤ 9223372036854775807 := by
  constructor
  · rintro ⟨ts, ⟨hlow, hhigh⟩, rfl⟩
    have hsec : ts.nanos / 1000000000 = ts.tvSec.toInt := by
      unfold nanos
      omega
    rw [hsec]
    exact ts.tvSec.bounds
  · intro h
    obtain ⟨sec, hsec⟩ := (I64.exists_toInt_eq_iff _).mpr h
    obtain ⟨nsec, hnsec⟩ := (I64.exists_toInt_eq_iff (x % 1000000000)).mpr (by omega)
    refine ⟨{ tvSec := sec, tvNsec := nsec }, ⟨?_, ?_⟩, ?_⟩
    · show 0 ≤ nsec.toInt
      omega
    · show nsec.toInt < 1000000000
      omega
    · show sec.toInt * 1000000000 + nsec.toInt = x
      omega

end Timespec

/-! ## Adding milliseconds -/

/-- One round of the loop of `add_millis`. -/
theorem carrySeconds_of_ge {ts : Timespec} (h : ts.tvNsec.toInt ≥ 1000000000) :
    ∃ nsec : I64, nsec.toInt = ts.tvNsec.toInt - 1000000000 ∧
      carrySeconds ts = (signed 64 (ts.tvSec.toInt + 1)).bind fun sec =>
        carrySeconds { tvSec := sec, tvNsec := nsec } := by
  have hbounds := ts.tvNsec.bounds
  obtain ⟨nsec, hnsec⟩ := (I64.exists_toInt_eq_iff (ts.tvNsec.toInt - 1000000000)).mpr (by omega)
  refine ⟨nsec, hnsec, ?_⟩
  rw [carrySeconds, if_pos h]
  split
  · rename_i hround
    exact absurd hnsec (signed_eq_none_iff.mp hround nsec)
  · rename_i nsec' hround
    rw [signed_eq_some_iff.mpr hnsec] at hround
    rw [Option.some.inj hround]

theorem carrySeconds_of_lt {ts : Timespec} (h : ts.tvNsec.toInt < 1000000000) :
    carrySeconds ts = some ts := by
  rw [carrySeconds, if_neg (by omega)]

/-- The loop of `add_millis` normalizes, unless the seconds overflow. -/
theorem carrySeconds_eq_some_iff {ts ts' : Timespec} (hpos : 0 ≤ ts.tvNsec.toInt) :
    carrySeconds ts = some ts' ↔ ts'.Normalized ∧ ts'.nanos = ts.nanos := by
  induction hn : ts.tvNsec.toInt.toNat using Nat.strongRecOn generalizing ts with
  | _ n ih =>
    by_cases hcarry : ts.tvNsec.toInt ≥ 1000000000
    · obtain ⟨nsec, hnsec, hround⟩ := carrySeconds_of_ge hcarry
      have hrest (sec : I64) (hsec : sec.toInt = ts.tvSec.toInt + 1) :
          carrySeconds { tvSec := sec, tvNsec := nsec } = some ts' ↔
            ts'.Normalized ∧ ts'.nanos = ts.nanos := by
        have hnanos : Timespec.nanos { tvSec := sec, tvNsec := nsec } = ts.nanos := by
          simp only [Timespec.nanos, hsec, hnsec]
          omega
        rw [← hnanos]
        exact ih nsec.toInt.toNat (by omega) (show 0 ≤ nsec.toInt by omega) rfl
      rw [hround, bind_signed_eq_some_iff]
      constructor
      · rintro ⟨sec, hsec, h⟩
        exact (hrest sec hsec).mp h
      · rintro ⟨hts', heq⟩
        -- the next second is not beyond the one that is reached
        have hbounds := ts.tvSec.bounds
        have hbounds' := ts'.tvSec.bounds
        have hnormal := hts'.2
        have hsum := heq
        unfold Timespec.nanos at hsum
        obtain ⟨sec, hsec⟩ := (I64.exists_toInt_eq_iff (ts.tvSec.toInt + 1)).mpr (by omega)
        exact ⟨sec, hsec, (hrest sec hsec).mpr ⟨hts', heq⟩⟩
    · have hts : ts.Normalized := ⟨hpos, by omega⟩
      rw [carrySeconds_of_lt hts.2, Option.some.injEq]
      constructor
      · rintro rfl
        exact ⟨hts, rfl⟩
      · rintro ⟨hts', heq⟩
        exact hts.eq_of_nanos_eq hts' heq.symm

/-- `add_millis` adds to the time. -/
theorem addMillis_eq_some_iff {ts ts' : Timespec} (h : ts.Normalized) {millis : I64}
    (hpos : 0 ≤ millis.toInt) (hle : millis.toInt ≤ 1000000) :
    addMillis ts millis = some ts' ↔
      ts'.Normalized ∧ ts'.nanos = ts.nanos + millis.toInt * 1000000 := by
  obtain ⟨hlow, hhigh⟩ := h
  obtain ⟨nanos, hnanos⟩ := (I64.exists_toInt_eq_iff (millis.toInt * 1000000)).mpr (by omega)
  obtain ⟨nsec, hnsec⟩ :=
    (I64.exists_toInt_eq_iff (ts.tvNsec.toInt + millis.toInt * 1000000)).mpr (by omega)
  have htime : Timespec.nanos { ts with tvNsec := nsec } = ts.nanos + millis.toInt * 1000000 := by
    simp only [Timespec.nanos, hnsec]
    omega
  have hcarry : carrySeconds { ts with tvNsec := nsec } = some ts' ↔
      ts'.Normalized ∧ ts'.nanos = ts.nanos + millis.toInt * 1000000 := by
    rw [← htime]
    exact carrySeconds_eq_some_iff (show 0 ≤ nsec.toInt by omega)
  rw [← hcarry, addMillis, signed_eq_some_iff.mpr hnanos, Option.bind_eq_bind, Option.bind_some, hnanos,
    signed_eq_some_iff.mpr hnsec, Option.bind_some]

/-- The deadlines do not drift: round `k` ends 20 milliseconds times `k` behind the start. -/
theorem deadlineAfter_eq_some_iff {start : Timespec} (hstart : start.Normalized) (k : Nat) :
    ∀ deadline, deadlineAfter start k = some deadline ↔
      deadline.Normalized ∧ deadline.nanos = start.nanos + 20000000 * k := by
  induction k with
  | zero =>
    intro deadline
    rw [deadlineAfter, Option.some.injEq]
    constructor
    · rintro rfl
      exact ⟨hstart, (Int.add_zero _).symm⟩
    · rintro ⟨h, heq⟩
      exact hstart.eq_of_nanos_eq h (by omega)
  | succ k ih =>
    intro deadline
    have hmillis : (BitVec.ofNat 64 kFrameDurationMs : I64).toInt = 20 := by decide
    have hadd (mid : Timespec) (hmid : mid.Normalized) :
        addMillis mid (BitVec.ofNat 64 kFrameDurationMs) = some deadline ↔
          deadline.Normalized ∧ deadline.nanos = mid.nanos + 20 * 1000000 := by
      rw [addMillis_eq_some_iff hmid (by omega) (by omega), hmillis]
    rw [deadlineAfter, Option.bind_eq_some_iff]
    constructor
    · rintro ⟨mid, hmid, h⟩
      obtain ⟨hnormal, hnanos⟩ := (ih mid).mp hmid
      obtain ⟨hnormal', hnanos'⟩ := (hadd mid hnormal).mp h
      exact ⟨hnormal', by omega⟩
    · rintro ⟨hnormal, hnanos⟩
      -- the deadline before lies between the start and this one
      obtain ⟨mid, hmid, hmidNanos⟩ :=
        (Timespec.exists_normalized_iff (start.nanos + 20000000 * k)).mpr (by
          have hlow := (Timespec.exists_normalized_iff start.nanos).mp ⟨start, hstart, rfl⟩
          have hhigh := (Timespec.exists_normalized_iff deadline.nanos).mp ⟨deadline, hnormal, rfl⟩
          omega)
      exact ⟨mid, (ih mid).mpr ⟨hmid, hmidNanos⟩, (hadd mid hmid).mpr ⟨hnormal, by omega⟩⟩

/-! ## Samples since the start -/

/-- `static_cast<uint32_t>` of a nonnegative `int64_t`. -/
theorem setWidth_of_toInt {v : I64} {x : Int} (hx : v.toInt = x) (hpos : 0 ≤ x) :
    v.setWidth 32 = BitVec.ofInt 32 x := by
  have hnat : v.toInt = v.toNat := by
    have hlt := v.isLt
    rw [BitVec.toInt_eq_toNat_cond] at hx ⊢
    split_ifs at hx ⊢ <;> omega
  apply BitVec.eq_of_toNat_eq
  rw [BitVec.toNat_setWidth, BitVec.toNat_ofInt]
  omega

/-- `samples_since` is exact unless the product of its nanoseconds and the rate overflows. -/
theorem samplesSince_eq_some_iff {start now : Timespec} (hstart : start.Normalized)
    (hnow : now.Normalized) (hle : start.nanos ≤ now.nanos) (samples : U32) :
    samplesSince start now = some samples ↔
      (now.nanos - start.nanos) * kSampleRateHz < 9223372036854775808 ∧
        samples = BitVec.ofInt 32 ((now.nanos - start.nanos) * kSampleRateHz / 1000000000) := by
  obtain ⟨hlow, hhigh⟩ := hstart
  obtain ⟨hlow', hhigh'⟩ := hnow
  have hrate : (kSampleRateHz : Int) = 8000 := rfl
  have helapsed : now.nanos - start.nanos = (now.tvSec.toInt - start.tvSec.toInt) * 1000000000 +
      (now.tvNsec.toInt - start.tvNsec.toInt) := by
    unfold Timespec.nanos
    omega
  simp only [samplesSince, Option.bind_eq_bind, bind_signed_eq_some_iff, hrate]
  constructor
  · rintro ⟨secDiff, hsec, nsecDiff, hnsec, secNs, hsecNs, totalNs, htotal, scaled, hscaled, count,
      hcount, hresult⟩
    have htotal : totalNs.toInt = now.nanos - start.nanos := by omega
    rw [if_neg (by omega), htotal] at hscaled
    have hbound := I64.bounds scaled
    have hcount : count.toInt = (now.nanos - start.nanos) * 8000 / 1000000000 := by
      rw [hcount, hscaled, Int.tdiv_eq_ediv_of_nonneg (by omega)]
    exact ⟨by omega, (Option.some.inj hresult).symm.trans (setWidth_of_toInt hcount (by omega))⟩
  · rintro ⟨hlt, rfl⟩
    obtain ⟨secDiff, hsec⟩ :=
      (I64.exists_toInt_eq_iff (now.tvSec.toInt - start.tvSec.toInt)).mpr (by omega)
    obtain ⟨nsecDiff, hnsec⟩ :=
      (I64.exists_toInt_eq_iff (now.tvNsec.toInt - start.tvNsec.toInt)).mpr (by omega)
    obtain ⟨secNs, hsecNs⟩ := (I64.exists_toInt_eq_iff (secDiff.toInt * 1000000000)).mpr (by omega)
    obtain ⟨totalNs, htotal⟩ := (I64.exists_toInt_eq_iff (secNs.toInt + nsecDiff.toInt)).mpr (by omega)
    have htotal' : totalNs.toInt = now.nanos - start.nanos := by omega
    obtain ⟨scaled, hscaled⟩ := (I64.exists_toInt_eq_iff (totalNs.toInt * 8000)).mpr (by omega)
    have hdiv : scaled.toInt.tdiv 1000000000 = (now.nanos - start.nanos) * 8000 / 1000000000 := by
      rw [hscaled, htotal', Int.tdiv_eq_ediv_of_nonneg (by omega)]
    obtain ⟨count, hcount⟩ := (I64.exists_toInt_eq_iff (scaled.toInt.tdiv 1000000000)).mpr (by omega)
    refine ⟨secDiff, hsec, nsecDiff, hnsec, secNs, hsecNs, totalNs, htotal, scaled, ?_, count, hcount, ?_⟩
    · rw [if_neg (by omega), hscaled]
    · exact congrArg some (setWidth_of_toInt (hcount.trans hdiv) (by omega))

/-! ## The clock -/

/-- **The playout clock.** After `k` rounds the deadline is exactly 20 milliseconds times `k` behind the
start and the clock shows 160 samples times `k`, and between any two times the clock shows the exact number
of samples, as long as the elapsed nanoseconds times the sampling rate stay below 2^63 and the seconds of
the deadline fit in 64 bits; and not beyond. -/
theorem sample_clock_iff (start : Timespec) (hstart : start.Normalized) :
    (∀ k : Nat, ClockExact start k ↔
      kFrameDurationMs * k * 1000000 * (kSampleRateHz : Int) < 9223372036854775808 ∧
        (start.nanos + kFrameDurationMs * k * 1000000) / 1000000000 < 9223372036854775808) ∧
    ∀ now : Timespec, now.Normalized → start.nanos ≤ now.nanos →
      (samplesSince start now =
          some (BitVec.ofInt 32 ((now.nanos - start.nanos) * kSampleRateHz / 1000000000)) ↔
        (now.nanos - start.nanos) * kSampleRateHz < 9223372036854775808) := by
  constructor
  · intro k
    have hframe : (kFrameDurationMs : Int) = 20 := rfl
    have hrate : (kSampleRateHz : Int) = 8000 := rfl
    have hsamples : BitVec.ofNat 32 (kFrameSamples * k) = BitVec.ofInt 32 (160 * k) := by
      rw [← BitVec.ofInt_natCast, Int.natCast_mul]
      rfl
    have hspec (now : Timespec) (hnow : now.Normalized) (hle : start.nanos ≤ now.nanos) :=
      samplesSince_eq_some_iff hstart hnow hle (BitVec.ofNat 32 (kFrameSamples * k))
    simp only [hrate, hsamples] at hspec
    simp only [ClockExact, hframe, hrate, hsamples]
    constructor
    · rintro ⟨deadline, -, hnormal, hnanos, hclock⟩
      have hfits := (Timespec.exists_normalized_iff deadline.nanos).mp ⟨deadline, hnormal, rfl⟩
      have hexact := ((hspec deadline hnormal (by omega)).mp hclock).1
      omega
    · rintro ⟨hproduct, hseconds⟩
      have hlow := (Timespec.exists_normalized_iff start.nanos).mp ⟨start, hstart, rfl⟩
      obtain ⟨deadline, hnormal, hnanos⟩ :=
        (Timespec.exists_normalized_iff (start.nanos + 20000000 * k)).mpr (by omega)
      refine ⟨deadline, (deadlineAfter_eq_some_iff hstart k deadline).mpr ⟨hnormal, hnanos⟩, hnormal,
        by omega, (hspec deadline hnormal (by omega)).mpr ⟨by omega, ?_⟩⟩
      congr 1
      omega
  · intro now hnow hle
    rw [samplesSince_eq_some_iff hstart hnow hle]
    exact ⟨And.left, fun h => ⟨h, rfl⟩⟩

/-- The clock after three rounds from a time just below a full second, and over one second. -/
theorem sample_clock_three :
    ClockExact { tvSec := 5, tvNsec := 990000000 } 3 ∧
      samplesSince { tvNsec := 500000000 } { tvSec := 1, tvNsec := 500000000 } = some 8000 :=
  ⟨((sample_clock_iff { tvSec := 5, tvNsec := 990000000 } (by decide)).1 3).mpr (by decide),
    ((sample_clock_iff { tvNsec := 500000000 } (by decide)).2 { tvSec := 1, tvNsec := 500000000 }
      (by decide) (by decide)).mpr (by decide)⟩

/-- 1152922 seconds after the start, which is the deadline of round 57646100, the product overflows. -/
theorem sample_clock_overflow :
    deadlineAfter {} 57646100 = some { tvSec := 1152922 } ∧
      samplesSince {} { tvSec := 1152922 } = none ∧ ¬ ClockExact {} 57646100 := by
  have hdeadline : deadlineAfter {} 57646100 = some { tvSec := 1152922 } :=
    (deadlineAfter_eq_some_iff (by decide) 57646100 { tvSec := 1152922 }).mpr (by decide)
  have hoverflow : samplesSince {} { tvSec := 1152922 } = none := by decide
  refine ⟨hdeadline, hoverflow, ?_⟩
  rintro ⟨deadline, hround, -, -, hclock⟩
  obtain rfl := Option.some.inj (hdeadline.symm.trans hround)
  exact absurd (hoverflow.symm.trans hclock) (by decide)

end RtpStreamer
