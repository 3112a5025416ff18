import Mathlib.Data.Int.Notation

/-!
# SpektrumRssi — the signal strength of a Spektrum receiver

The table of `spektrum_rssi.h`, which both the DSM input and the Ghost input use.
-/

namespace DtPhm
namespace Rc

/-- `lu_dbm_percent`. -/
def luDbmPercent : List Int8 := [
  100, 100, 100, 100, 100, 100, 100, 100, 100, 100, 100, 100, 100, 100, 100, 100,
  100, 100, 100, 100, 100, 100, 100, 100, 100, 100, 100, 100, 100, 100, 100, 100,
  100, 100, 100, 100, 100, 100, 100, 100, 100, 100, 100, 99,  98,  98,  97,  96,
  95,  94,  93,  92,  91,  90,  89,  88,  87,  86,  85,  84,  83,  82,  81,  79,
  78,  77,  75,  74,  73,  71,  70,  68,  66,  65,  63,  61,  59,  57,  55,  52,
  50,  47,  45,  42,  39,  35,  32,  28,  24,  19,  13,  7,   0,   0,   0,   0,
  0,   0,   0,   0,   0,   0,   0,   0,   0,   0,   0,   0,   0,   0,   0,   0,
  0,   0,   0,   0,   0,   0,   0,   0,   0,   0,   0,   0,   0,   0,   0,   0,
  0]

/-- `spek_dbm_to_percent`. -/
def spekDbmToPercent (dbm : Int8) : Int8 := luDbmPercent.getD dbm.toInt.natAbs 0

end Rc
end DtPhm
