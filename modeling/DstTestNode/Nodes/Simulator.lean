import DstTestNode.Nodes.Configuration

open rust
open shadow.topogen (Config)

namespace nodes

/-- The names that the simulator knows: every host of a configuration has an IPv4
address of its own. -/
structure NameService (config : Config) where
  address : String → Option String
  known : ∀ name, (address name).isSome = true ↔ name ∈ config.hosts
  distinct : ∀ name other text, address name = some text → address other = some text → name = other

/-- The name in a text that may end with a port. -/
def host_part (t_address : String) : String :=
  String.ofList (t_address.toList.takeWhile fun c => c ≠ ':')

namespace NameService

variable {config : Config}

/-- What every lookup of a name gives. -/
def lookup (service : NameService config) (t_address : String) (_ : Nat) : Option (List IpAddr) :=
  (service.address (host_part t_address)).map fun text => [⟨text, true⟩]

/-- The address of a host that is known. -/
def ip (service : NameService config) (name : String) : IpAddr :=
  ⟨(service.address name).getD "", true⟩

end NameService

section

variable {network_size my_id count : Nat}

variable {Addr : Type} {limit : Nat} {address : Nat → Addr} {succeeds : Addr → Bool}
  {ids : List Nat} {candidates : List Addr}

end

end nodes
