import Syndilights.BoundedTable
import Syndilights.ActionSystem
import Syndilights.InTransit
import Syndilights.Serpentine
import Syndilights.MaskLoop
import Syndilights.Frameserver.Server
import Syndilights.Frameserver.FrameTheorems
import Syndilights.Frameserver.TableTheorems
import Syndilights.Frameserver.ExpireTheorems
import Syndilights.Frameserver.ListenTheorems
import Syndilights.Frameserver.SendTheorems
import Syndilights.Frameserver.BlendTheorems
import Syndilights.Frameserver.MixTheorems
import Syndilights.Frameserver.PlaceTheorems
import Syndilights.Frameserver.RationalTheorems
import Syndilights.Frameserver.SnapshotTheorems
import Syndilights.Clients.S2llib
import Syndilights.Clients.S2llibTheorems
import Syndilights.Displayclient.Visionneuse
import Syndilights.Displayclient.WsUdp
import Syndilights.Displayclient.VisionneuseTheorems
import Syndilights.Displayclient.WsUdpTheorems
import Syndilights.Displayclient.StackTheorems
import Syndilights.Displayclient.Ardupixel
import Syndilights.Displayclient.ArdupixelTheorems
import Syndilights.Displayclient.Relay
import Syndilights.Displayclient.RelayTheorems
import Syndilights.V2.DataGenerator
import Syndilights.V2.DataGeneratorTheorems
import Syndilights.V2.Pipeline
import Syndilights.V2.PipelineTheorems
import Syndilights.V2.Handshake
import Syndilights.V2.HandshakeTheorems
import Syndilights.V2.SerialConfigure
import Syndilights.V2.SerialConfigureTheorems
import Syndilights.V2.TeensyTheorems
import Syndilights.V2.ReceiverTheorems
import Syndilights.V2.SerpentineTheorems
import Syndilights.V2.OlderEncoders
import Syndilights.V2.OlderEncodersTheorems
import Syndilights.V2.OctoWS2811
import Syndilights.V2.OctoWS2811Theorems
import Syndilights.V2.ResyncTheorems
import Syndilights.Frameserver.Console
import Syndilights.Frameserver.ConsoleTheorems
import Syndilights.Frameserver.Buffers
import Syndilights.Frameserver.BuffersTheorems
import Syndilights.Clients.SetterTheorems
import Syndilights.Displayclient.Renderer
import Syndilights.Displayclient.RendererTheorems
import Syndilights.V2.PngMerger
import Syndilights.V2.PngMergerTheorems
import Syndilights.V2.Limits
import Syndilights.V2.LimitsTheorems
import Syndilights.V2.FrameSync
import Syndilights.V2.FrameSyncTheorems
import Syndilights.Displayclient.ZigzagTheorems
import Syndilights.CellBlock
import Syndilights.Displayclient.Serial2eeprom
import Syndilights.Displayclient.Serial2eepromTheorems
import Syndilights.PoC.Win7seg
import Syndilights.PoC.Win7segTheorems
import Syndilights.CellularAutomaton
import Syndilights.PoC.Biglife
import Syndilights.Frameserver.ClientList
import Syndilights.Frameserver.ClientListTheorems
import Syndilights.PoC.BiglifeTheorems
import Syndilights.Displayclient.BufferList
import Syndilights.Displayclient.BufferListTheorems
import Syndilights.Incremental
import Syndilights.Displayclient.FragmentTheorems
import Syndilights.Displayclient.LifetimeTheorems
import Syndilights.Displayclient.DeliveryTheorems
import Syndilights.Displayclient.OutgoingQueue
import Syndilights.V2.SetPixelTheorems
import Syndilights.Displayclient.EepromTheorems
import Syndilights.Frameserver.PrintFrame
import Syndilights.Frameserver.PrintFrameTheorems
import Syndilights.PoC.Shiftout
import Syndilights.PoC.ShiftoutTheorems
import Syndilights.V2.Pacing
import Syndilights.V2.PacingTheorems
