import ObjectSpace.Resolution.Failure

set_option autoImplicit false

namespace ObjectSpace

structure ResolverConfig where
  maxSearchCount : Nat := 10000
  asAdmin : Bool := false
  deriving DecidableEq, Repr

namespace ResolverConfig

def admin : ResolverConfig := { asAdmin := true }

def validate (config : ResolverConfig) : Except ConfigError Unit :=
  if config.maxSearchCount < 1 then .error .searchCount else .ok ()

end ResolverConfig

end ObjectSpace
