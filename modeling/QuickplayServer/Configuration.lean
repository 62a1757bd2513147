/-!
# QuickplayServer.Configuration

The server's configuration and its defaults (`src/configuration.rs`).
-/

namespace QuickplayServer

structure QuickplayConfiguration where
  /-- the prefix that all user preferences will start with -/
  preferenceConvarPrefix : String
  /-- the path to the server list -/
  serverListPath : String
  /-- the path to the schema -/
  schemaPath : String
  deriving DecidableEq, Repr

structure ServerConfiguration where
  /-- the address and port that the server will bind to -/
  bindAddress : String
  /-- the delay between connection background updates, in milliseconds -/
  connectionUpdateDelay : Nat
  /-- the maximum time that a connection can live before being forcibly
  killed, in milliseconds -/
  connectionTimeout : Nat
  /-- number of bytes that can be sent in a single packet of reliable data -/
  maxReliablePacketSize : Nat
  /-- maximum number of packets that can be sent before the netchannel will
  start dropping every packet -/
  maxPacketsDropped : Nat
  /-- the appid to advertise through A2S -/
  appId : Nat
  /-- the app description to advertise through A2S -/
  appDesc : String
  /-- the app version to advertise through A2S -/
  appVersion : String
  /-- the server name to advertise through A2S -/
  serverName : String
  deriving DecidableEq, Repr

structure Configuration where
  server : ServerConfiguration
  quickplay : QuickplayConfiguration
  deriving DecidableEq, Repr

namespace Configuration

def loadDefault : Configuration where
  server :=
    { bindAddress := "127.0.0.2:4444"
      connectionUpdateDelay := 150
      connectionTimeout := 20000
      maxReliablePacketSize := 1024
      maxPacketsDropped := 5000
      appId := 440
      appDesc := "Team Fortress 2"
      appVersion := ""
      serverName := "Quickplay" }
  quickplay :=
    { preferenceConvarPrefix := "rqp_"
      serverListPath := "/invalid/path.json"
      schemaPath := "/invalid/path.json" }

end Configuration

end QuickplayServer
