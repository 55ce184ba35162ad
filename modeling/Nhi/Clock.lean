import Nhi.Daemon

/-!
Readings of the clock, and the number of tenths of a second `get_indicator`
makes of one.
-/

namespace Nhi

/-- What `gettimeofday` gives: less than a second of microseconds, and a date
whose tenths of a second fit a `long`. -/
structure Timeval.Valid (now : Timeval) : Prop where
  usecLow : 0 ≤ now.tvUsec.toInt
  usecHigh : now.tvUsec.toInt < 1000000
  low : -9223372036854775808 ≤ now.tvSec.toInt * 10
  high : now.tvSec.toInt * 10 + 9 < 9223372036854775808

instance (now : Timeval) : Decidable now.Valid :=
  decidable_of_iff (0 ≤ now.tvUsec.toInt ∧ now.tvUsec.toInt < 1000000 ∧
      -9223372036854775808 ≤ now.tvSec.toInt * 10 ∧ now.tvSec.toInt * 10 + 9 < 9223372036854775808)
    ⟨fun ⟨usecLow, usecHigh, low, high⟩ => ⟨usecLow, usecHigh, low, high⟩,
      fun valid => ⟨valid.usecLow, valid.usecHigh, valid.low, valid.high⟩⟩

def Timeval.tenths (now : Timeval) : Int := now.tvSec.toInt * 10 + now.tvUsec.toInt / 100000

def Timeval.NotAfter (first second : Timeval) : Prop :=
  first.tvSec.toInt < second.tvSec.toInt ∨
    (first.tvSec.toInt = second.tvSec.toInt ∧ first.tvUsec.toInt ≤ second.tvUsec.toInt)

instance (first second : Timeval) : Decidable (first.NotAfter second) :=
  inferInstanceAs (Decidable (_ ∨ _))

theorem getIndicator_toInt {now : Timeval} (valid : now.Valid) :
    (getIndicator now).toInt = now.tenths := by
  obtain ⟨usecLow, usecHigh, low, high⟩ := valid
  have product : (now.tvSec * 10#64).toInt = now.tvSec.toInt * 10 := by
    rw [BitVec.toInt_mul]
    exact Int.bmod_eq_of_le (by simpa using low) (by simp; omega)
  have quotient : (now.tvUsec.sdiv 100000#64).toInt = now.tvUsec.toInt / 100000 := by
    rw [BitVec.toInt_sdiv]
    have same : now.tvUsec.toInt.tdiv (100000#64).toInt = now.tvUsec.toInt / 100000 :=
      Int.tdiv_eq_ediv_of_nonneg usecLow
    rw [same]
    exact Int.bmod_eq_of_le (by simp; omega) (by simp; omega)
  rw [getIndicator, BitVec.toInt_add, product, quotient, Timeval.tenths]
  exact Int.bmod_eq_of_le (by simp; omega) (by simp; omega)

theorem Timeval.NotAfter.tenths_le {first second : Timeval} (valid : first.Valid)
    (alsoValid : second.Valid) (notAfter : first.NotAfter second) :
    first.tenths ≤ second.tenths := by
  have _ := valid.usecHigh
  have _ := alsoValid.usecLow
  simp only [tenths]
  rcases notAfter with earlier | ⟨same, below⟩ <;> omega

theorem getIndicator_mono {first second : Timeval} (valid : first.Valid)
    (alsoValid : second.Valid) (notAfter : first.NotAfter second) :
    (getIndicator first).toInt ≤ (getIndicator second).toInt := by
  rw [getIndicator_toInt valid, getIndicator_toInt alsoValid]
  exact notAfter.tenths_le valid alsoValid

theorem getIndicator_eq_iff {first second : Timeval} (valid : first.Valid)
    (alsoValid : second.Valid) :
    getIndicator first = getIndicator second ↔ first.tenths = second.tenths := by
  rw [← getIndicator_toInt valid, ← getIndicator_toInt alsoValid, BitVec.toInt_inj]

end Nhi
