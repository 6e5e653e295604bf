import Mathlib.Data.Countable.Basic
import Mathlib.Logic.Equiv.List
import Mathlib.Tactic.DeriveCountable
import CargoPds.Foundation.Identity
import CargoPds.Foundation.Time

/-!
# Countable types

Texts, byte strings, identifiers and times are countable, and so are the records of
them.  Encoders with given texts rest on this (`Tabled`).
-/

namespace CargoPds

instance countableChar : Countable Char :=
  Function.Injective.countable (f := Char.toNat) fun _ _ h => Char.toNat_inj.mp h

instance countableString : Countable String :=
  Function.Injective.countable (f := String.toList) fun _ _ h => String.toList_inj.mp h

instance countableBitVec (width : Nat) : Countable (BitVec width) :=
  Function.Injective.countable (f := BitVec.toNat) fun _ _ h => BitVec.eq_of_toNat_eq h

instance countableUInt8 : Countable UInt8 :=
  Function.Injective.countable (f := UInt8.toNat) fun _ _ h => UInt8.toNat_inj.mp h

deriving instance Countable for Location
deriving instance Countable for Time

end CargoPds
