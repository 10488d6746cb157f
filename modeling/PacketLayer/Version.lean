/-!
# Version

The version that the packet layer goes by.
-/

namespace PacketLayer

/-- The version of the packet layer. -/
def version : String := "0.1.0"

end PacketLayer
