import Zallet.Backends.Transactions
import Zallet.Backends.TreeState
import Zallet.Database.Open
import Zallet.Keystore.Sink
import Zallet.Launcher.Backend
import Zallet.Migrate.MigratedUsers
import Zallet.Migrate.NoScanBirthday
import Zallet.Migrate.Provisional
import Zallet.Migrate.WatchPubkeys
import Zallet.Migrate.ZcashConfOutput
import Zallet.Rpc.BackupGate
import Zallet.Rpc.Cookie
import Zallet.Rpc.HttpCompatibility
import Zallet.Rpc.ListAddresses
import Zallet.Rpc.ListTransactions
import Zallet.Rpc.MessageSignatures
import Zallet.Rpc.OperationQueue
import Zallet.Rpc.Pir
import Zallet.Rpc.ReloadKeys
import Zallet.Rpc.ShieldCoinbase
import Zallet.Rpc.ViewedReport
import Zallet.Rpc.WalletStatus
import Zallet.Spend.SpendingKey
import Zallet.Start.Tasks
import Zallet.Sync.Assertions
import Zallet.Sync.Boundary
import Zallet.Sync.Completion
import Zallet.Sync.Coverage
import Zallet.Sync.Divergence
import Zallet.Sync.ForkSearch
import Zallet.Sync.ScanPrograms
import Zallet.Sync.SpendWatermark
import Zallet.Sync.SyncedStatus
import Zallet.Zebra.Mempool
