import CoreSdk.Go.Runtime
import CoreSdk.Go.Retry
import CoreSdk.Data.Packing
import CoreSdk.Crypto.CompactBitArray
import CoreSdk.Tx.Signing
import CoreSdk.Tx.Sigs
import CoreSdk.Crypto.Multisig
import CoreSdk.Crypto.MultisigAssembly
import CoreSdk.Types.Errors
import CoreSdk.Common.SubArray
import CoreSdk.Client.SendBatch
import CoreSdk.Go.Big
import CoreSdk.Go.Strings
import CoreSdk.Types.Int
import CoreSdk.Types.Dec
import CoreSdk.Types.Coin
import CoreSdk.Types.DecCoin
import CoreSdk.Types.DecEncoding
import CoreSdk.Crypto.Keys
import CoreSdk.Client.Keys
import CoreSdk.Types.CoinText
import CoreSdk.Types.CoinArith
import CoreSdk.Go.Bech32
import CoreSdk.Types.Address
import CoreSdk.Bank.Types
import CoreSdk.Data.Rounding
import CoreSdk.Types.DecArith
import CoreSdk.Tx.Builder
import CoreSdk.Codec.UnknownProto
import CoreSdk.Tx.Decoder
import CoreSdk.Data.DigitOrder
import CoreSdk.Types.DecSortable
import CoreSdk.Feegrant.Allowance
import CoreSdk.Tx.Unwrap
import CoreSdk.Crypto.CompactBitArrayCodec
import CoreSdk.Crypto.HdPath
import CoreSdk.Store.Iterator
import CoreSdk.Store.Gas
import CoreSdk.Ibc.Transfer.Trace
import CoreSdk.Crypto.Bip44
import CoreSdk.Types.DecCoinConvert
import CoreSdk.Types.AmountOf
import CoreSdk.Types.DecPower
import CoreSdk.Store.Diff
import CoreSdk.Types.Token
import CoreSdk.Feegrant.Filtered
import CoreSdk.Store.GasKv
import CoreSdk.Common.Uuid
import CoreSdk.Go.Io
import CoreSdk.Data.Clock
import CoreSdk.Common.UuidGenerator
import CoreSdk.Types.CoinCompare
import CoreSdk.Types.DecCoinOps
import CoreSdk.Go.Chan
import CoreSdk.Client.Locker
import CoreSdk.Go.Schedule
import CoreSdk.Rpc.WsEvents
