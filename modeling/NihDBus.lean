import NihDBus.Message
import NihDBus.Path
import NihDBus.Bridge
import NihDBus.Setup
import NihDBus.Object
import NihDBus.Registry
import NihDBus.Xml
import NihDBus.Introspection
import NihDBus.Introspect
import NihDBus.IntrospectRead
import NihDBus.Dispatch
import NihDBus.Server
