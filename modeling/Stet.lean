import Stet.Go
import Stet.Proto
import Stet.World
import Stet.Codec
import Stet.Container
import Stet.Client.Kms
import Stet.Client.Ekm
import Stet.Client.Shares
import Stet.Client.RoundTrip
import Stet.Client.Orchestrator
import Stet.Client.EndToEnd
import Stet.Client.Lifecycle
import Stet.Client.Safety
import Stet.Client.Teardown
import Stet.Legacy
import Stet.Legacy.Orchestrator
import Stet.Legacy.RoundTrip
import Stet.Legacy.Keys
import Stet.Legacy.Unwrap
import Stet.Conformance
