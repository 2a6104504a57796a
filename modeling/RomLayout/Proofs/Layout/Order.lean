import Mathlib.Data.List.Forall2
import RomLayout.Proofs.Assembly
import RomLayout.Proofs.Building

set_option autoImplicit false

/-!
The sections of a layout in document order.

Building makes one section of each declaration and resolving keeps the sections in their
places. So the declarations of a description and the sections of its resolved layout go
side by side.
-/

namespace RomLayout

end RomLayout
