import BeaconMesh.Lib.Sweep
import BeaconMesh.Lib.History
import BeaconMesh.EspRelay
import BeaconMesh.RelayStep
import BeaconMesh.CacheInvariant
import BeaconMesh.BurstJustification
import BeaconMesh.Retention
import BeaconMesh.ClockShift
import BeaconMesh.Suppression
import BeaconMesh.EspVictim
import BeaconMesh.Scanner
import BeaconMesh.EspNetwork
import BeaconMesh.CircularBuffer
import BeaconMesh.SimulatorNode
import BeaconMesh.Mirror
import BeaconMesh.Lib.Flood
import BeaconMesh.Mesh
import BeaconMesh.MeshDelivery
import BeaconMesh.GatewayForward
import BeaconMesh.BurstCompletion
import BeaconMesh.ForwardingTime
import BeaconMesh.LazyExpiry
import BeaconMesh.RedundancyCount
import BeaconMesh.PacketBuffer
import BeaconMesh.SimulatorVictim
import BeaconMesh.Lib.Throttle
import BeaconMesh.UdpServer
import BeaconMesh.ServerReports
import BeaconMesh.Lib.BreadthFirst
import BeaconMesh.Lib.Route
import BeaconMesh.MeshGenerator
import BeaconMesh.GeneratorDepth
import BeaconMesh.GeneratorReach
import BeaconMesh.FifoBuffer
import BeaconMesh.FirstCopies
import BeaconMesh.SimulatorListener
import BeaconMesh.GeneratorIslands
import BeaconMesh.GeneratorCompose
import BeaconMesh.Lib.Mixing
import BeaconMesh.MurmurHash
import BeaconMesh.VictimLoop
import BeaconMesh.Lib.Spacing
import BeaconMesh.RelayAirtime
import BeaconMesh.RelayRadio
import BeaconMesh.NodeHistory
import BeaconMesh.RelayStatus
import BeaconMesh.Traffic
import BeaconMesh.TrafficDelivery
import BeaconMesh.ServerLoad
import BeaconMesh.EmergencyReports
import BeaconMesh.GeneratedTraffic
import BeaconMesh.GeneratorProgram
import BeaconMesh.RelayDrain
import BeaconMesh.RelayWave
import BeaconMesh.WaveDelivery
import BeaconMesh.WaveReports
import BeaconMesh.ReportFormat
import BeaconMesh.WaveStorm
import BeaconMesh.WifiSetup
import BeaconMesh.NodeInterfaces
import BeaconMesh.ScannerScreens
import BeaconMesh.Lib.Refinement
import BeaconMesh.RelayBoard
import BeaconMesh.RelayRefinement
import BeaconMesh.RoomyRelay
import BeaconMesh.Overheard
import BeaconMesh.RelaySerial
import BeaconMesh.TrafficSettling
