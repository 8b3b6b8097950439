import OhMyMiner.Lib.Loop
import OhMyMiner.Lib.Bytes
import OhMyMiner.Lib.Fips202
import OhMyMiner.Lib.Fips202Inverse
import OhMyMiner.Lib.Sponge
import OhMyMiner.Lib.RandMemoHash
import OhMyMiner.Lib.Hashimoto
import OhMyMiner.Lib.Grid
import OhMyMiner.Lib.Transition
import OhMyMiner.Lib.Reservation
import OhMyMiner.Lib.Batched
import OhMyMiner.Lib.Handles
import OhMyMiner.Lib.Logged
import OhMyMiner.Lib.Transducer
import OhMyMiner.Lib.JsonText
import OhMyMiner.Lib.Utf8
import OhMyMiner.Lib.JsonValue
import OhMyMiner.Lib.Strings
import OhMyMiner.Types
import OhMyMiner.Keccak.Permutation
import OhMyMiner.Keccak.Fips
import OhMyMiner.Keccak.Absorb
import OhMyMiner.Keccak.Eval
import OhMyMiner.Utils.Difficulty
import OhMyMiner.Utils.Hex
import OhMyMiner.Utils.HexNumber
import OhMyMiner.Ethash.Cache
import OhMyMiner.Ethash.Dataset
import OhMyMiner.Ethash.Item
import OhMyMiner.Ethash.Verify
import OhMyMiner.Ethash.Offset
import OhMyMiner.Ethash.Epoch
import OhMyMiner.Search.Kernel
import OhMyMiner.Search.Correct
import OhMyMiner.Search.CpuCheck
import OhMyMiner.Search.Optimized
import OhMyMiner.Search.Texture
import OhMyMiner.Search.Collect
import OhMyMiner.Dag.Kernel
import OhMyMiner.Dag.Coverage
import OhMyMiner.Dag.Generator
import OhMyMiner.Dag.Allocation
import OhMyMiner.Dag.Failure
import OhMyMiner.Dag.DiskCache
import OhMyMiner.Stratum.Json
import OhMyMiner.Stratum.Framing
import OhMyMiner.Stratum.Scanning
import OhMyMiner.Stratum.Objects
import OhMyMiner.Stratum.Submit
import OhMyMiner.Stratum.Notify
import OhMyMiner.Stratum.Accesses
import OhMyMiner.Stratum.Targets
import OhMyMiner.Stratum.PoolUrl
import OhMyMiner.Stratum.Connection
import OhMyMiner.Stratum.Announce
import OhMyMiner.Stratum.Fields
import OhMyMiner.Stratum.Escape
import OhMyMiner.Stratum.Dump
import OhMyMiner.Pipeline.Executor
import OhMyMiner.Pipeline.Traced
import OhMyMiner.Pipeline.Hashes
import OhMyMiner.Pipeline.Conservation
import OhMyMiner.Pipeline.Setup
import OhMyMiner.Engine.Run
import OhMyMiner.Engine.Nonces
import OhMyMiner.Engine.Shares
import OhMyMiner.Engine.Launch
import OhMyMiner.Engine.Coverage
import OhMyMiner.Engine.Devices
import OhMyMiner.Engine.Output
import OhMyMiner.Engine.DeviceState
import OhMyMiner.Engine.Handshake
import OhMyMiner.Engine.Requests
import OhMyMiner.Engine.Program
import OhMyMiner.Engine.Difficulty
import OhMyMiner.Engine.Lifetime
import OhMyMiner.Engine.Buffers
import OhMyMiner.Engine.Kernels
import OhMyMiner.Engine.Miner
import OhMyMiner.Pipeline.Kernels
