import PublicPool.Bitcoin

/-!
# `PublicPool.Sv2.Extranonce`: channel numbers and extranonce prefixes

The state that all Stratum V2 connections share besides the jobs: the counter of channel ids of
`services/stratum-v2.service.ts`, and `Sv2ExtranonceManager`, which gives every extended channel
a prefix no other live one has.
-/

set_option autoImplicit false

namespace PublicPool.Sv2

/-- `Sv2ExtranonceManager`. -/
structure Sv2ExtranonceManager where
  prefixSize : ℕ
  totalExtranonceSize : ℕ
  nextPrefix : ℕ
  allocatedPrefixes : ℕ → Option ℕ
  usedPrefixes : List ℕ

namespace Sv2ExtranonceManager

def initial (prefixSize totalExtranonceSize : ℕ) : Sv2ExtranonceManager where
  prefixSize := prefixSize
  totalExtranonceSize := totalExtranonceSize
  nextPrefix := 1
  allocatedPrefixes _ := none
  usedPrefixes := []

variable (manager : Sv2ExtranonceManager)

def maxPrefix : ℕ := 2 ^ ((manager.prefixSize - 1) * 8) - 1

def minerExtranonceSize : ℕ := manager.totalExtranonceSize - manager.prefixSize

/-- The bytes of a prefix, most significant first. -/
def prefixToBuffer (value : ℕ) : Bytes :=
  (List.range manager.prefixSize).map fun i =>
    UInt8.ofNat (value / 256 ^ (manager.prefixSize - 1 - i))

/-- The prefix after another one; after the last comes `1`. -/
def following (localPrefix : ℕ) : ℕ :=
  if manager.maxPrefix < localPrefix + 1 then 1 else localPrefix + 1

/-- The first unused prefix from one on, within a number of attempts. -/
def findPrefix : ℕ → ℕ → ℕ
  | 0, localPrefix => localPrefix
  | attempts + 1, localPrefix =>
    if localPrefix ∈ manager.usedPrefixes then
      findPrefix attempts (manager.following localPrefix)
    else localPrefix

/-- `allocate`, which throws when no prefix is left. -/
def allocate (channelId : ℕ) : Option (Sv2ExtranonceManager × Bytes) :=
  match manager.allocatedPrefixes channelId with
  | some existing => some (manager, manager.prefixToBuffer existing)
  | none =>
    let localPrefix := manager.findPrefix (manager.maxPrefix + 1) manager.nextPrefix
    if localPrefix ∈ manager.usedPrefixes then none
    else
      some
        ({ manager with
            allocatedPrefixes := fun id =>
              if id = channelId then some localPrefix else manager.allocatedPrefixes id
            usedPrefixes := localPrefix :: manager.usedPrefixes
            nextPrefix := manager.following localPrefix },
          manager.prefixToBuffer localPrefix)

/-- `release`. -/
def release (channelId : ℕ) : Sv2ExtranonceManager :=
  match manager.allocatedPrefixes channelId with
  | some used =>
    { manager with
      allocatedPrefixes := fun id =>
        if id = channelId then none else manager.allocatedPrefixes id
      usedPrefixes := manager.usedPrefixes.filter (· ≠ used) }
  | none => manager

end Sv2ExtranonceManager

/-- `StratumV2Service`. -/
structure StratumV2Service where
  channelIdCounter : ℕ
  extranonceManager : Sv2ExtranonceManager

namespace StratumV2Service

/-- The service when it starts: four bytes of prefix and ten of the miner's own. -/
def initial : StratumV2Service where
  channelIdCounter := 1
  extranonceManager := .initial 4 14

/-- `generateExtranoncePrefix`: the low half of the counter and two random bytes. -/
def generateExtranoncePrefix (service : StratumV2Service) (random : UInt8 × UInt8) : Bytes :=
  [UInt8.ofNat (service.channelIdCounter / 256), UInt8.ofNat service.channelIdCounter,
    random.1, random.2]

/-- `releaseExtendedExtranoncePrefix`. -/
def releaseExtendedExtranoncePrefix (service : StratumV2Service) (channelId : ℕ) :
    StratumV2Service :=
  { service with extranonceManager := service.extranonceManager.release channelId }

end StratumV2Service

end PublicPool.Sv2
