import HyperionNg.PriorityMuxerHistory
import HyperionNg.ClonedLeds
import HyperionNg.EffectClears
import HyperionNg.EffectMessages
import HyperionNg.VisibleFrame
import HyperionNg.FrameLength
import HyperionNg.SetThenClear
import HyperionNg.SmoothingTarget
import HyperionNg.BorderSwitching
import HyperionNg.LedRegions
import HyperionNg.MapBorders
import HyperionNg.BorderFit
import HyperionNg.DetectedBorder
import HyperionNg.ImageCommands
import HyperionNg.AdjustmentBounds
import HyperionNg.LedAdjustments
import HyperionNg.AdjustmentCommands
import HyperionNg.LedRanges
import HyperionNg.RawMessages
import HyperionNg.WebSocketMessages
import HyperionNg.ProtoFrames
import HyperionNg.ProtoReplies
import HyperionNg.ProtoPriorities
import HyperionNg.BoblightOutput
import HyperionNg.LedDeviceTpm2net
import HyperionNg.LedDeviceUdpE131
import HyperionNg.LedDeviceMultiLightpack
import HyperionNg.SerialFrames
import HyperionNg.ImageResampler
import HyperionNg.KodiVideoModes
import HyperionNg.KodiMessages
import HyperionNg.SchemaConformance
import HyperionNg.JsonReplies
import HyperionNg.BrightnessLimits
import HyperionNg.SmoothingOutput
import HyperionNg.SmoothingBounds
import HyperionNg.StaticFileServing
import HyperionNg.HueStates
import HyperionNg.HueColours
import HyperionNg.ArgumentOwnership
import HyperionNg.ConfigurationFiles
import HyperionNg.SmoothingRestart
import HyperionNg.SmoothingOff
import HyperionNg.DetectorReads
import HyperionNg.WebSocketBounds
import HyperionNg.SchemaMessages
import HyperionNg.ColorFill
import HyperionNg.SpiFrames
import HyperionNg.LedDeviceSk6812SPI
import HyperionNg.ImageSampling
import HyperionNg.ScreenSizes
import HyperionNg.ArgumentValues
import HyperionNg.ColorsOption
import HyperionNg.MatrixLeds
import HyperionNg.ClassicLeds
import HyperionNg.HueGamut
import HyperionNg.LedCoverage
import HyperionNg.Library.HttpMessage
import HyperionNg.Library.RequestReply
import HyperionNg.QtHttpClientWrapper
import HyperionNg.HttpRequests
import HyperionNg.HttpAnswers
import HyperionNg.JsonConnection
import HyperionNg.RemoteCommands
import HyperionNg.RemoteSession
import HyperionNg.Library.FrameSync
import HyperionNg.LedDeviceAdalight
import HyperionNg.Adalight
import HyperionNg.AdalightFrames
import HyperionNg.AdalightLine
import HyperionNg.Library.RingBuffer
import HyperionNg.Lightberry
import HyperionNg.LightberryStream
import HyperionNg.LightberryLine
import HyperionNg.Library.Overlay
import HyperionNg.EffectStore
import HyperionNg.EffectDefinitions
import HyperionNg.EffectCommands
import HyperionNg.EffectStacks
