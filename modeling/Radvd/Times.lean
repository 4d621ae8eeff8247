import Radvd.Defs
import Mathlib.Algebra.Order.Floor.Defs
import Mathlib.Data.Rat.Floor

/-!
# Clock readings and the ageing of prefixes

The clock arithmetic of `timer.c` and `update_iface_times` of `send.c`, which
subtracts the seconds since the previous RA from the lifetimes of every prefix
with `DecrementLifetimes`.

The seconds that are counted between two readings are the difference of their
`tv_sec`, less one if the sub-second part dropped by a millisecond or more
(`secsSinceLastRa_eq`). Summed over many RAs they fall behind the clock by one
second for every such drop.
-/

namespace Radvd

namespace Timespec

/-- A reading of the monotonic clock: time since the machine started, with the
nanoseconds of one second. -/
def Valid (t : Timespec) : Prop :=
  0 ≤ t.tvSec ∧ 0 ≤ t.tvNsec ∧ t.tvNsec < 1000000000

def Before (t u : Timespec) : Prop :=
  t.tvSec < u.tvSec ∨ (t.tvSec = u.tvSec ∧ t.tvNsec ≤ u.tvNsec)

instance (t : Timespec) : Decidable t.Valid :=
  inferInstanceAs (Decidable (_ ∧ _))

instance (t u : Timespec) : Decidable (t.Before u) :=
  inferInstanceAs (Decidable (_ ∨ _))

def since (u t : Timespec) : Int :=
  (u.tvSec - t.tvSec) * 1000000000 + (u.tvNsec - t.tvNsec)

def floorSince (u t : Timespec) : Int :=
  u.since t / 1000000000

def ceilSince (u t : Timespec) : Int :=
  -(-u.since t / 1000000000)

theorem Before.tvSec_le {t u : Timespec} (before : t.Before u) : t.tvSec ≤ u.tvSec := by
  rcases before with later | ⟨same, -⟩ <;> omega

theorem Before.trans {t u v : Timespec} (first : t.Before u) (second : u.Before v) :
    t.Before v := by
  simp only [Before] at *
  omega

theorem Before.refl (t : Timespec) : t.Before t :=
  .inr ⟨rfl, le_rfl⟩

theorem le_ceilSince {t u : Timespec} (validT : t.Valid) (validU : u.Valid) :
    u.tvSec - t.tvSec ≤ u.ceilSince t := by
  simp only [Valid, ceilSince, since] at *
  omega

end Timespec

/-- `timespecdiff`, in milliseconds; the division truncates towards zero. -/
def timespecdiff (a b : Timespec) : Int :=
  (a.tvSec - b.tvSec) * 1000 + (a.tvNsec - b.tvNsec).tdiv (1000 * 1000)

/-- The conversion of a `double` to an integer, which drops the fraction. -/
def truncate (x : ℚ) : Int :=
  if 0 ≤ x then ⌊x⌋ else ⌈x⌉

/-- `(int)next`. Outside the range of `int` the conversion is undefined in C;
on x86 it gives the least value. -/
def toCInt (next : ℚ) : Int :=
  if -2147483648 ≤ truncate next ∧ truncate next ≤ 2147483647 then truncate next
  else -2147483648

def nextTimespec (now : Timespec) (next : ℚ) : Timespec where
  tvSec := now.tvSec + toCInt next
  tvNsec := truncate (now.tvNsec + 1000000000 * (next - toCInt next))

/-- The seconds `update_iface_times` counts, where a clock that went backwards
counts as none. -/
def secsSinceLastRa (now last : Timespec) : Int :=
  if (timespecdiff now last).tdiv 1000 < 0 then 0 else (timespecdiff now last).tdiv 1000

/-- Between these readings a second is lost: the sub-second part dropped by a
millisecond or more. -/
def losesSecond (now last : Timespec) : Bool :=
  now.tvNsec + 1000000 ≤ last.tvNsec

theorem tdiv_timespecdiff {now last : Timespec} (validNow : now.Valid) (validLast : last.Valid)
    (before : last.Before now) :
    (timespecdiff now last).tdiv 1000 =
      now.tvSec - last.tvSec - if losesSecond now last then 1 else 0 := by
  simp only [Timespec.Valid, Timespec.Before] at *
  rw [timespecdiff]
  by_cases positive : 0 ≤ now.tvNsec - last.tvNsec
  · have keeps : losesSecond now last = false := by
      simp only [losesSecond, decide_eq_false_iff_not]
      omega
    rw [keeps, Int.tdiv_eq_ediv_of_nonneg positive, Int.tdiv_eq_ediv_of_nonneg (by omega)]
    simp only [Bool.false_eq_true, if_false]
    omega
  · have dropped : (now.tvNsec - last.tvNsec).tdiv (1000 * 1000) =
        -((last.tvNsec - now.tvNsec) / (1000 * 1000)) := by
      rw [← Int.neg_sub, Int.neg_tdiv, Int.tdiv_eq_ediv_of_nonneg (by omega)]
    rw [dropped, Int.tdiv_eq_ediv_of_nonneg (by omega)]
    simp only [losesSecond, decide_eq_true_eq]
    split <;> omega

theorem secsSinceLastRa_eq {now last : Timespec} (validNow : now.Valid) (validLast : last.Valid)
    (before : last.Before now) :
    secsSinceLastRa now last =
      now.tvSec - last.tvSec - if losesSecond now last then 1 else 0 := by
  rw [secsSinceLastRa, tdiv_timespecdiff validNow validLast before]
  apply if_neg
  simp only [Timespec.Valid, Timespec.Before] at *
  simp only [losesSecond, decide_eq_true_eq]
  split <;> omega

theorem secsSinceLastRa_nonneg (now last : Timespec) : 0 ≤ secsSinceLastRa now last := by
  simp only [secsSinceLastRa]
  split <;> omega

theorem secsSinceLastRa_le {now last : Timespec} (validNow : now.Valid) (validLast : last.Valid)
    (before : last.Before now) : secsSinceLastRa now last ≤ now.tvSec - last.tvSec := by
  rw [secsSinceLastRa_eq validNow validLast before]
  split <;> omega

/-! ## Ageing -/

def decrementLifetime (secs : Int) (lifetime : UInt32) : UInt32 :=
  if (lifetime.toNat : Int) > secs then UInt32.ofInt (lifetime.toNat - secs) else 0

theorem toNat_decrementLifetime {secs : Int} (nonneg : 0 ≤ secs) (lifetime : UInt32) :
    ((decrementLifetime secs lifetime).toNat : Int) = max 0 (lifetime.toNat - secs) := by
  have bound := lifetime.toNat_lt
  simp only [decrementLifetime]
  split
  · rw [UInt32.ofInt, UInt32.toNat_ofNat']
    omega
  · have : (0 : UInt32).toNat = 0 := rfl
    omega

def ageEntry (ceaseAdv : Bool) (secs : Int) (entry : AdvPrefix) : AdvPrefix :=
  if (!entry.decrementLifetimesFlag || entry.currPreferredlft > 0) &&
      !(ceaseAdv && entry.deprecatePrefixFlag) && entry.decrementLifetimesFlag then
    { entry with
      currValidlft := decrementLifetime secs entry.currValidlft
      currPreferredlft := decrementLifetime secs entry.currPreferredlft }
  else entry

def updateIfaceTimes (now : Timespec) (iface : Interface) : Interface :=
  let secs := secsSinceLastRa now iface.times.lastRaTime
  { iface with
    times := { iface.times with lastRaTime := now }
    advPrefixList := iface.advPrefixList.map (ageEntry iface.stateInfo.ceaseAdv secs) }

def resetEntry (entry : AdvPrefix) : AdvPrefix :=
  if entry.decrementLifetimesFlag then
    { entry with
      currValidlft := entry.advValidLifetime
      currPreferredlft := entry.advPreferredLifetime }
  else entry

def resetPrefixLifetimes (iface : Interface) : Interface :=
  { iface with advPrefixList := iface.advPrefixList.map resetEntry }

end Radvd
