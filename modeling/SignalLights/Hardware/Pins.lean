/-!
# Pin assignment

The pins of the boards, and the serial port of the status display.
-/

namespace SignalLights.Pins

def driverForward : Int := 1
def driverReverse : Int := 2
def driverDigital : Int := 3
def lampForward : Int := 4
def lampReverse : Int := 5
def rangeStrip : Int := 6
def statusPort : Int := 1
def statusTransmit : Int := 17
def statusReceive : Int := 18
def statusBaud : Nat := 9600

end SignalLights.Pins
