/-!
# Machine words

Numbers in written documents fit into words of 32 or 64 bits, and events are numbered with
words of 64 bits.
-/

namespace Statechart
namespace Word

/-- The first number that does not fit into 32 bits. -/
def bound32 : Nat := 4294967296

/-- The first number that does not fit into 64 bits. -/
def bound64 : Nat := 18446744073709551616

end Word
end Statechart
