import HkKernel.Word

/-!
# File errors

`FsError`, the errors the modelled file operations return: the ext4 driver's and the socket
file operations'.
-/

namespace HkKernel

/-- `FsError` (its constructors that the modelled functions return). -/
inductive FsError
  | ioError
  | notFound
  | notSupported
  | wouldBlock
  | notADirectory
  deriving DecidableEq, Repr

end HkKernel
