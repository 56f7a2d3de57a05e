import Ccfolio.Authentication
import Ccfolio.ConcurrentCalls
import Ccfolio.CredentialMap
import Ccfolio.Delivery
import Ccfolio.Dispatch
import Ccfolio.Listener
import Ccfolio.LogInstance
import Ccfolio.LogProgress
import Ccfolio.LogShutdown
import Ccfolio.LoginSecrecy
import Ccfolio.PasswordStorage
import Ccfolio.PooledConnections
import Ccfolio.Registration
import Ccfolio.RepositoryStore
import Ccfolio.ResponseFraming
import Ccfolio.Routing
import Ccfolio.SendProgress
import Ccfolio.ServerRuns
import Ccfolio.SessionLifetimes
import Ccfolio.SessionProtocol
import Ccfolio.TableHistory
import Ccfolio.Takeover
import Ccfolio.TokenLifetimes
import Ccfolio.TokenProvenance
import Ccfolio.Transactions
import Ccfolio.UsernameRace
import Ccfolio.WebSocketSession
