import Neobolt.Basic
import Neobolt.Wire.Framing
import Neobolt.Wire.Inbox
import Neobolt.Wire.Outbox
import Neobolt.Wire.OutboxMessages
import Neobolt.Wire.OutboxState
import Neobolt.Wire.Decode
import Neobolt.Wire.Reading
import Neobolt.Connection.State
import Neobolt.Connection.Fetch
import Neobolt.Connection.Pipeline
import Neobolt.Connection.Reset
import Neobolt.Connection.Requests
import Neobolt.Connection.ServerInfo
import Neobolt.Connection.Session
import Neobolt.Connection.Confined
import Neobolt.Connection.Failures
import Neobolt.Connection.Connect
import Neobolt.Connection.Init
import Neobolt.Pool.Model
import Neobolt.Pool.Safety
import Neobolt.Pool.Reentry
import Neobolt.Pool.Closing
import Neobolt.Pool.Holding
import Neobolt.Pool.Calls
import Neobolt.Pool.Ownership
