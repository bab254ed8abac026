import PublicPool.Proofs.Sv1.AnnouncedDifficulty
import PublicPool.Proofs.Sv2.AnnouncedTarget
import PublicPool.Proofs.Sv2.DoubleCredit

/-!
# `PublicPool.Proofs.AnnouncedDifficulty`: the difficulty a miner was told is the one it is held to

The two protocols fail in opposite directions. Stratum V1 holds a share to the difficulty of the
moment, so that one on a job announced before a raise is refused. Stratum V2 holds it to the
difficulty its job was sent at, so that a target that was eased since does not count.
-/

set_option autoImplicit false

namespace PublicPool.Proofs

open Sv1 Sv2

/-- Announced difficulty is honoured. In every run of the Stratum V1 connections in which no
difficulty is raised between a job and a submission on it, and in every run of the Stratum V2
connections in which none is eased, no submission on a live job is refused whose hash meets the
target the miner was told. -/
theorem announced_difficulty_honoured (host : Externals) (config : Sv1Config)
    (config' : Sv2Config) (inputs : List AwaitInput) (inputs' : List Sv2Input)
    (hraise : (awaitMachine host config).Along (NoLateRaise host config) .initial [] inputs)
    (heased : (sv2Machine host config').Along (NotEased host) .initial [] inputs') :
    (awaitMachine host config).Along (Sv1Honoured host config) .initial [] inputs ∧
      (sv2Machine host config').Along (Sv2Honoured host config') .initial [] inputs' :=
  ⟨along_sv1Honoured host config hraise, along_sv2Honoured host config' heased⟩

namespace Sv1Sample

/-- `A` gets a job, the minute timer sets a new difficulty, and a share on the job comes before
the next job is sent. -/
def retargeted (suggested : ℚ) : List Sv1Input :=
  login 0 .solo "A.rig" ++
    [.template (template "B") 1700000000000, .sendJob 0 0 true true 1700000000001,
      .checkDifficulty 0 (some suggested) 1700000060000,
      .submit 0 (submission "1" "0000000000000001" "00000005") none none]

/-- The share is judged. -/
def retargetedRun (suggested : ℚ) : List AwaitInput :=
  (retargeted suggested).map .begin ++ [.resume 0 0 true none]

end Sv1Sample

namespace Sv2Sample

/-- A standard channel that is opened at a hash rate gets a job, announces another hash rate and
submits a share on the job. -/
def updatedRun (opening update : ℚ) : List Sv2Input :=
  [.connect 0 "s" .solo, .template (template 7 true) 1700000000000,
    .data 0 [.openStandardMiningChannel
      { requestId := 1, userIdentity := "A.rig", nominalHashRate := some opening,
        maxTarget := List.replicate 32 0xff }]]
    ++ turns 14
    ++ [.data 0 [.updateChannel
      { channelId := 1, nominalHashRate := some update,
        maximumTarget := List.replicate 32 0xff }]]
    ++ turns 2 ++ [.data 0 [.submitSharesStandard (submission 2 5)]] ++ turns 2

end Sv2Sample

/-- A share of the announced difficulty is refused after a raise on a Stratum V1 connection, and
after an easing on a Stratum V2 channel. -/
theorem not_announced_difficulty_honoured :
    ¬ (awaitMachine Sv1Sample.host Sv1Sample.config).Along
        (Sv1Honoured Sv1Sample.host Sv1Sample.config) .initial []
        (Sv1Sample.retargetedRun 100000000) ∧
      ¬ (sv2Machine Sv2Sample.host Sv2Sample.config).Along
        (Sv2Honoured Sv2Sample.host Sv2Sample.config) .initial []
        (Sv2Sample.updatedRun 10000000000000000 100000000000000) := by
  constructor
  · decide +kernel
  · decide +kernel

theorem announced_difficulty_honoured_sample :
    (awaitMachine Sv1Sample.host Sv1Sample.config).Along
        (Sv1Honoured Sv1Sample.host Sv1Sample.config) .initial [] (Sv1Sample.retargetedRun 50000) ∧
      (sv2Machine Sv2Sample.host Sv2Sample.config).Along
        (Sv2Honoured Sv2Sample.host Sv2Sample.config) .initial []
        (Sv2Sample.updatedRun 100000000000000 1000000000000000) :=
  announced_difficulty_honoured Sv1Sample.host Sv1Sample.config Sv2Sample.config
    (Sv1Sample.retargetedRun 50000) (Sv2Sample.updatedRun 100000000000000 1000000000000000)
    (by decide +kernel) (by decide +kernel)

end PublicPool.Proofs
