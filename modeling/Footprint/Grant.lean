import Footprint.Address

/-!
# Grants

A grant makes one block accessible to the code that faulted on it. A run is in one of five phases,
two of which carry the fault or the grant that is being dealt with.
-/

namespace Footprint

/-- How a block is made accessible. -/
inductive GrantMethod where
  -- Fresh memory is mapped where nothing is.
  | map
  -- The protection of the guarded region is lifted.
  | unprotect
deriving DecidableEq, Repr, Inhabited

namespace GrantMethod

def text : GrantMethod → String
  | map => "Map"
  | unprotect => "Unprotect"

end GrantMethod

/-- One block to make accessible. -/
structure Grant where
  -- The address that faulted.
  addr : Addr
  -- Start of the block.
  block : Addr
  -- Length of the block.
  len : Addr
  method : GrantMethod
deriving DecidableEq, Repr, Inhabited

namespace Grant

def text (g : Grant) : String :=
  s!"BlockGrant \x7b addr: {g.addr}, block: {g.block}, len: {g.len}, method: {g.method.text} \x7d"

end Grant

/-- Where a run stands between two stops. -/
inductive Phase where
  -- The block executes.
  | running
  -- A denied access is being judged.
  | faulted (addr pc : Addr)
  -- A grant was decided on and is not yet carried out.
  | granting (grant : Grant)
  -- The block completed.
  | trapped
  -- The run ended in a failure.
  | aborted
deriving DecidableEq, Repr, Inhabited

namespace Phase

def text : Phase → String
  | running => "Running"
  | faulted addr pc => s!"Faulted \x7b addr: {addr}, pc: {pc} \x7d"
  | granting grant => s!"Granting({grant.text})"
  | trapped => "Trapped"
  | aborted => "Aborted"

end Phase

end Footprint
