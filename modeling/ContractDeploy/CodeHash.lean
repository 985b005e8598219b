import ContractDeploy.Keccak

/-!
# Hashes of code

Code is remembered by its hash. An account without code has the hash of the empty byte string;
some nodes report a single zero byte for such an account, so that hash stands for no code too.
-/

namespace ContractDeploy

/-- Whether a hash is that of an account without code. -/
def Hash.isOfNoCode (hash : Hash) : Bool := hash = keccak256 [] || hash = keccak256 [0]

end ContractDeploy
